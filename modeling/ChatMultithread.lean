import ChatMultithread.Client.Commands
import ChatMultithread.Client.Console
import ChatMultithread.Client.Decoding
import ChatMultithread.Client.Ending
import ChatMultithread.Client.Grammar
import ChatMultithread.Client.Hearing
import ChatMultithread.Client.InputLoop
import ChatMultithread.Client.LongLines
import ChatMultithread.Client.Passes
import ChatMultithread.Client.Process
import ChatMultithread.Client.ReceiverLoop
import ChatMultithread.Client.Register
import ChatMultithread.Client.Resources
import ChatMultithread.Client.Speaking
import ChatMultithread.Client.Stopping
import ChatMultithread.Client.UserList
import ChatMultithread.Client.Usernames
import ChatMultithread.Common.Bounds
import ChatMultithread.Common.Builders
import ChatMultithread.Common.Canonical
import ChatMultithread.Common.Fields
import ChatMultithread.Common.Parser
import ChatMultithread.Common.ProtoBuild
import ChatMultithread.Common.Protocol
import ChatMultithread.Common.Utils
import ChatMultithread.Common.Validation
import ChatMultithread.EndToEnd.Broadcast
import ChatMultithread.EndToEnd.ChatRoom
import ChatMultithread.EndToEnd.Commands
import ChatMultithread.EndToEnd.Framing
import ChatMultithread.EndToEnd.Handshake
import ChatMultithread.EndToEnd.Pipeline
import ChatMultithread.EndToEnd.Ports
import ChatMultithread.EndToEnd.PrivateMessage
import ChatMultithread.EndToEnd.Requests
import ChatMultithread.EndToEnd.RoomRefinement
import ChatMultithread.EndToEnd.RoomServed
import ChatMultithread.EndToEnd.RoomShown
import ChatMultithread.EndToEnd.RoomSteps
import ChatMultithread.EndToEnd.Screens
import ChatMultithread.EndToEnd.Segments
import ChatMultithread.EndToEnd.Transmission
import ChatMultithread.EndToEnd.UserList
import ChatMultithread.EndToEnd.Usernames
import ChatMultithread.Lib.CInt
import ChatMultithread.Lib.CString
import ChatMultithread.Lib.Decimal
import ChatMultithread.Lib.Escaping
import ChatMultithread.Lib.Framing
import ChatMultithread.Lib.HandleTable
import ChatMultithread.Lib.History
import ChatMultithread.Lib.Lifetime
import ChatMultithread.Lib.Memory
import ChatMultithread.Lib.Prog
import ChatMultithread.Lib.Room
import ChatMultithread.Lib.Sending
import ChatMultithread.Lib.Tokens
import ChatMultithread.Lib.Transition
import ChatMultithread.Server.ClientThread
import ChatMultithread.Server.Externs
import ChatMultithread.Server.Handlers
import ChatMultithread.Server.Proofs.Descriptors
import ChatMultithread.Server.Proofs.Dialogue
import ChatMultithread.Server.Proofs.Events
import ChatMultithread.Server.Proofs.Gate
import ChatMultithread.Server.Proofs.Handover
import ChatMultithread.Server.Proofs.Identity
import ChatMultithread.Server.Proofs.Idle
import ChatMultithread.Server.Proofs.Leaks
import ChatMultithread.Server.Proofs.LineLimit
import ChatMultithread.Server.Proofs.Listing
import ChatMultithread.Server.Proofs.Log
import ChatMultithread.Server.Proofs.Owing
import ChatMultithread.Server.Proofs.Ownership
import ChatMultithread.Server.Proofs.Persistence
import ChatMultithread.Server.Proofs.Processes
import ChatMultithread.Server.Proofs.Quit
import ChatMultithread.Server.Proofs.Replies
import ChatMultithread.Server.Proofs.Shutdown
import ChatMultithread.Server.Proofs.Speech
import ChatMultithread.Server.Proofs.Spoken
import ChatMultithread.Server.Proofs.Startup
import ChatMultithread.Server.Proofs.Status
import ChatMultithread.Server.Proofs.Steps
import ChatMultithread.Server.Proofs.TableOwnership
import ChatMultithread.Server.Proofs.Ticks
import ChatMultithread.Server.Proofs.UniqueNames
import ChatMultithread.Server.Proofs.Validity
import ChatMultithread.Server.Proofs.Visibility
import ChatMultithread.Server.Proofs.WindingDown
import ChatMultithread.Server.Sequential
import ChatMultithread.Server.Serving
import ChatMultithread.Server.SessionManager
import ChatMultithread.Server.Shutdown
import ChatMultithread.Server.Startup
import ChatMultithread.Server.System
