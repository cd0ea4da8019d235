import StingerClient.Python
import StingerClient.UpdateBuffer
import StingerClient.Stream
import StingerClient.Runs
import StingerClient.Batch
import StingerClient.KeepAlive
import StingerClient.DataArray
import StingerClient.DataLayout
import StingerClient.Engine
import StingerClient.Core
import StingerClient.CoreSpec
import StingerClient.Mapping
import StingerClient.EdgeRemoval
import StingerClient.Sessions
import StingerClient.Lifecycle
