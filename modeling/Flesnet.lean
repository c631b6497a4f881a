import Flesnet.Worker
import Flesnet.WorkerTable
import Flesnet.Codec
import Flesnet.Distributor
import Flesnet.Steps
import Flesnet.QueueInvariant
import Flesnet.Conservation
import Flesnet.Dispatch
import Flesnet.WorkerChannel
import Flesnet.ProducerChannel
import Flesnet.Lifecycle
import Flesnet.Accounting
import Flesnet.Provenance
import Flesnet.Sockets
import Flesnet.Faults
import Flesnet.AtMostOnce
import Flesnet.Verdicts
import Flesnet.Subscriber
import Flesnet.Tsa2msa
