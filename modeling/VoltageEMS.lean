import VoltageEMS.Rules.OnChange
import VoltageEMS.Shm.DispatchOrder
import VoltageEMS.Comsrv.ShmListener
import VoltageEMS.Shm.NotifierStream
import VoltageEMS.Shm.Mapping
import VoltageEMS.Shm.SlotRace
import VoltageEMS.Iec61850.Association
import VoltageEMS.Comsrv.MappingReadBack
import VoltageEMS.Modsrv.RoutingLoad
import VoltageEMS.Modsrv.InstanceNames
import VoltageEMS.Alarmsrv.EnabledAlerts
import VoltageEMS.Alarmsrv.AlertHistory
import VoltageEMS.Comsrv.StoreShutdown
import VoltageEMS.Apigateway.ConfigRuns
import VoltageEMS.Apigateway.Privileges
import VoltageEMS.Apigateway.TokenRotation
import VoltageEMS.Apigateway.WsHub
import VoltageEMS.Comsrv.SunSpec
import VoltageEMS.Shm.ChannelIndexRuns
import VoltageEMS.Shm.DirtyDrain
import VoltageEMS.Shm.InstanceIndex
import VoltageEMS.Rules.WatchDispatch
import VoltageEMS.Monarch.RoundTrip
import VoltageEMS.Rules.OwnReads
import VoltageEMS.Rules.CooldownStart
import VoltageEMS.Modsrv.PointReads
import VoltageEMS.Core.Dl645
import VoltageEMS.Shm.IndexInverse
import VoltageEMS.Shm.PointWatchDrain
import VoltageEMS.Comsrv.RouteChange
import VoltageEMS.Routing.WriterAgreement
import VoltageEMS.Comsrv.CanDecoder
import VoltageEMS.Routing.ActionPoint
import VoltageEMS.Calc.Builtin
import VoltageEMS.Comsrv.Reconnect
import VoltageEMS.Hissrv.Flush
