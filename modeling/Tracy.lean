import Tracy.Bytes
import Tracy.Wire
import Tracy.Context
import Tracy.Send
import Tracy.Receive
import Tracy.Engine
import Tracy.System
import Tracy.Frame
import Tracy.Registry
import Tracy.Connection
import Tracy.Delivery
import Tracy.Requests
import Tracy.Malformed
import Tracy.Names
import Tracy.Window
import Tracy.Api
import Tracy.Beacon
import Tracy.Conformance
import Tracy.Announce
import Tracy.Shutdown
import Tracy.Enabled
