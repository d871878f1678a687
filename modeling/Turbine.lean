import Turbine.Lib.HashMap
import Turbine.Lib.Runs
import Turbine.Lib.Watch
import Turbine.Net
import Turbine.Listener.Runner
import Turbine.Listener.NewestRule
import Turbine.Listener.Drain
import Turbine.EventLoop
import Turbine.Reload
import Turbine.Shutdown
import Turbine.Config.Watcher
import Turbine.Config.Parse
import Turbine.Routing
import Turbine.Ktls.Stream
import Turbine.Ktls.CorkStream
import Turbine.Ktls.Handover
import Turbine.Ktls.Close
import Turbine.Ktls.EndOfStream
import Turbine.Lib.WrappingCounter
import Turbine.LoadBalancing
import Turbine.Lib.ByteOrder
import Turbine.ServerName
import Turbine.Splice.Key
import Turbine.Transfer
import Turbine.Splice.Sockmap
import Turbine.Splice.Register
import Turbine.Lib.Bypass
import Turbine.Splice.Order
import Turbine.Config.WatchSet
import Turbine.Ktls.Framing
import Turbine.Ktls.CorkCalls
import Turbine.Ktls.Fallback
import Turbine.Ktls.Alert
import Turbine.Ktls.IntoRaw
import Turbine.Ktls.Peers
import Turbine.History
import Turbine.Program
import Turbine.Client
import Turbine.Serving
import Turbine.Ktls.Setup
import Turbine.Ktls.Termination
import Turbine.Lib.Potential
import Turbine.Settling
import Turbine.Splice.Lifetime
