import Rounac.BusReaders
import Rounac.CallsAlone
import Rounac.CatchUp
import Rounac.ConcurrentFanOut
import Rounac.Config
import Rounac.Config.AsbSerde
import Rounac.Config.AsbSerialize
import Rounac.Config.DurationSerde
import Rounac.Config.Params
import Rounac.ConfigPanics
import Rounac.ConfigRoundTrip
import Rounac.Connecting
import Rounac.CreationRace
import Rounac.DispatchDeadlock
import Rounac.Downcast
import Rounac.DropDrains
import Rounac.DurationText
import Rounac.EndToEnd
import Rounac.Error
import Rounac.ExpirationFilter
import Rounac.FailedCreation
import Rounac.FailedIsFinal
import Rounac.FailedReads
import Rounac.FanOut
import Rounac.HeardInFull
import Rounac.InTransit
import Rounac.LastReader
import Rounac.Lib.CountedPool
import Rounac.Lib.Dialogue
import Rounac.Lib.DrawnIds
import Rounac.Lib.KeyedMap
import Rounac.Lib.LockOrder
import Rounac.Lib.OverwriteRing
import Rounac.Lib.Picks
import Rounac.Lib.Settle
import Rounac.Lib.SpacedFilter
import Rounac.Lib.StepSystem
import Rounac.Lib.SwapRemove
import Rounac.Lib.TaskPool
import Rounac.Lib.TimedRing
import Rounac.Lib.Trim
import Rounac.Lib.Validator
import Rounac.Lib.WrapCounter
import Rounac.Lib.XmlDocument
import Rounac.Lifecycle
import Rounac.ListenerDispatch
import Rounac.LoopbackDelivery
import Rounac.ModeSwitch
import Rounac.MqttHandshake
import Rounac.MsgSerde
import Rounac.NetworkParams
import Rounac.Networks.Asb
import Rounac.Networks.Bus
import Rounac.Networks.Connect
import Rounac.Networks.Connection
import Rounac.Networks.Listeners
import Rounac.Networks.NewMqtt
import Rounac.Networks.Plane
import Rounac.Networks.Race
import Rounac.Networks.Reader
import Rounac.Networks.Roster
import Rounac.Networks.StatusManager
import Rounac.Networks.Steps
import Rounac.Networks.Utils
import Rounac.NoDeadlock
import Rounac.NullReaders
import Rounac.OrderedCallbacks
import Rounac.OwnRemoval
import Rounac.PerTopicQos
import Rounac.PollingExclusion
import Rounac.PossessOwners
import Rounac.QosRoundTrip
import Rounac.ReadTimeout
import Rounac.ReaderLosses
import Rounac.ReaderlessNetworks
import Rounac.SenderRemoval
import Rounac.ShutdownBarrier
import Rounac.ShutdownFuse
import Rounac.StatusListeners
import Rounac.StaySubscribed
import Rounac.TakenInOrder
import Rounac.TimeFilter
import Rounac.TopicTypes
import Rounac.XmlEnvelope
