import NbIot.Lib.Run
import NbIot.Proofs.Classify
import NbIot.Agent.Measurement
import NbIot.Node.Packet
import NbIot.Node.Sdk
import NbIot.Proofs.Codec
import NbIot.Agent.CumulocityHandler
import NbIot.Agent.Routes
import NbIot.Proofs.Uplink
import NbIot.Node.Eeprom
import NbIot.Proofs.Credentials
import NbIot.Proofs.Fresh
import NbIot.Agent.Agent
import NbIot.Agent.Exchange
import NbIot.Proofs.Replies
import NbIot.Cloud.Backend
import NbIot.Proofs.Handout
import NbIot.Proofs.Inventory
import NbIot.World
import NbIot.Proofs.Traffic
import NbIot.Proofs.Reset
import NbIot.Proofs.Kept
import NbIot.Lib.Scan
import NbIot.Lib.While
import NbIot.Lib.Buffer
import NbIot.Proofs.Temperature
import NbIot.Proofs.Constructor
import NbIot.Node.Device
import NbIot.Proofs.Imei
import NbIot.Node.Modem
import NbIot.Node.Sketch
import NbIot.Proofs.Timer
import NbIot.Proofs.Copying
import NbIot.Node.Heard
import NbIot.Proofs.Stored
import NbIot.Proofs.Pending
import NbIot.Lib.Clock
import NbIot.Node.Serial
import NbIot.Lib.Pieces
import NbIot.Proofs.Framing
import NbIot.Proofs.Listening
import NbIot.Proofs.Capacity
import NbIot.Lib.Says
import NbIot.Node.Connect
import NbIot.Proofs.Bringup
import NbIot.Lib.Timed
import NbIot.Proofs.Deadline
import NbIot.Lib.Append
import NbIot.Lib.Cbor
import NbIot.Node.CborBuilder
import NbIot.Proofs.Message
import NbIot.Node.PayloadBuilder
import NbIot.Proofs.Payload
import NbIot.Node.AirQuality
import NbIot.Proofs.Pollution
import NbIot.Deployment
import NbIot.Lib.Matching
import NbIot.Proofs.Provenance
import NbIot.Proofs.Recovery
import NbIot.Proofs.Isolation
