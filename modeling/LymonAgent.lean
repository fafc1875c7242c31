import LymonAgent.Runs
import LymonAgent.Rowid
import LymonAgent.F64
import LymonAgent.Double
import LymonAgent.Text
import LymonAgent.Utf8
import LymonAgent.Decimal
import LymonAgent.Percent
import LymonAgent.Segments
import LymonAgent.LogBuf
import LymonAgent.Mailbox
import LymonAgent.Json
import LymonAgent.Ingest.Buffer
import LymonAgent.Ingest.BufferInv
import LymonAgent.Ingest.Enqueue
import LymonAgent.Ingest.Drain
import LymonAgent.Ingest.Streamer
import LymonAgent.Ingest.Acks
import LymonAgent.Ingest.Delivery
import LymonAgent.Ingest.Backoff
import LymonAgent.Ingest.Server
import LymonAgent.Ingest.Deliver
import LymonAgent.Control.Codec
import LymonAgent.Control.Write
import LymonAgent.Control.Gate
import LymonAgent.Control.OpcUa
import LymonAgent.Control.Signing
import LymonAgent.Control.Channel
import LymonAgent.Control.Confirm
import LymonAgent.Collect.Reconfigure
import LymonAgent.Collect.Provision
import LymonAgent.Collect.Window
import LymonAgent.Plugin.Host
import LymonAgent.Plugin.Boundary
import LymonAgent.Plugin.Route
import LymonAgent.Control.Subscribe
import LymonAgent.Plugin.OpcUa
import LymonAgent.Plugin.Exchange
import LymonAgent.S7.Connector
import LymonAgent.S7.Addressing
import LymonAgent.S7.Payload
import LymonAgent.Plugin.Browse
import LymonAgent.Control.Supported
import LymonAgent.Control.RoundTrip
import LymonAgent.S7.Blocks
import LymonAgent.S7.Memory
import LymonAgent.S7.Transfer
import LymonAgent.S7.Poll
import LymonAgent.S7.Directory
import LymonAgent.Control.Serve
import LymonAgent.Pss.Dates
import LymonAgent.Pss.Paths
import LymonAgent.Pss.Values
import LymonAgent.Pss.History
import LymonAgent.Control.Update
import LymonAgent.Collect.Cycle
import LymonAgent.Collect.Pipeline
import LymonAgent.Plugin.Remote
import LymonAgent.Collect.Measured
import LymonAgent.Plugin.Linear
import LymonAgent.Plugin.Written
import LymonAgent.Enroll
