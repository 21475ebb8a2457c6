import EngineBridge.Main
import EngineBridge.Settings.FromJson
import EngineBridge.Proofs.Call.Grammar
import EngineBridge.Proofs.Exchange
import EngineBridge.Proofs.Output
import EngineBridge.Proofs.Desktop.Liveness
import EngineBridge.Proofs.Desktop.Geometry
import EngineBridge.Proofs.Desktop.Locality
import EngineBridge.Proofs.Desktop.Separation
import EngineBridge.Proofs.Desktop.History
import EngineBridge.Proofs.Demo.Calls
import EngineBridge.Proofs.Application
import EngineBridge.Proofs.Program
import EngineBridge.Proofs.Routing
import EngineBridge.Proofs.Conversation
import EngineBridge.Proofs.Drawing.Canvas
import EngineBridge.Proofs.Drawing.Smoothing
import EngineBridge.Proofs.Desktop.Frames
import EngineBridge.Proofs.Desktop.Resizing
import EngineBridge.Proofs.Call.Images
import EngineBridge.Proofs.Text.Truncated
import EngineBridge.Proofs.Call.Frame
import EngineBridge.Proofs.Delivery
import EngineBridge.Proofs.Handshake
import EngineBridge.Proofs.Export
import EngineBridge.Proofs.Json.Printing
import EngineBridge.Proofs.Settings.Partial
import EngineBridge.Proofs.Drawing.Transform
import EngineBridge.Proofs.Drawing.Undefined
import EngineBridge.Proofs.Text.Holding
import EngineBridge.Proofs.Demo.Pictures
