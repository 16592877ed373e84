import Aes70.Machine.Basic
import Aes70.Server.Machine
import Aes70.Class.Recall
import Aes70.Class.Overread
import Aes70.Router.Parse
import Aes70.Router.Message
import Aes70.Router.Framing
import Aes70.Router.Batch
import Aes70.Router.Overflow
import Aes70.Security.Confinement
import Aes70.Router.Classification
import Aes70.Router.Atomic
import Aes70.Transport.Assembly
import Aes70.Server.Command
import Aes70.Machine.Log
import Aes70.Server.Subscriptions
import Aes70.Device.Mirror
import Aes70.Forest.Walk
import Aes70.Ocp1.Text
import Aes70.Ocp1.RoundTrip
import Aes70.Router.Params
import Aes70.Router.Reads
import Aes70.Router.Text
import Aes70.Server.Mirror
import Aes70.Class.Enrolment
import Aes70.Ieee.Convert
import Aes70.Router.Bounds
import Aes70.Server.Bounds
import Aes70.Server.Discrete
import Aes70.Server.Callback
import Aes70.Server.Stream
import Aes70.Server.Fanout
import Aes70.Server.Scope
import Aes70.Server.Getters
import Aes70.Server.Subscriber
import Aes70.Server.Matrix
import Aes70.Server.Telemetry
import Aes70.Router.Checks
import Aes70.Server.Task
import Aes70.Server.Parameters
import Aes70.Server.Path
import Aes70.Server.Replica
import Aes70.Server.Supervision
import Aes70.Server.Life
import Aes70.Server.Smoketest
import Aes70.Transport.Advertising
import Aes70.Device.Ownership
import Aes70.Server.Discovery
