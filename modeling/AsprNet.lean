import AsprNet.Lib.Chunks
import AsprNet.Anet
import AsprNet.Package
import AsprNet.Arguments
import AsprNet.Ae.Loop
import AsprNet.Ae.Table
import AsprNet.Ae.Interest
import AsprNet.Server.Handlers
import AsprNet.Server.Service
import AsprNet.Server.Dispatch
import AsprNet.Server.Replies
import AsprNet.Server.Lifetime
import AsprNet.Client.Commands
import AsprNet.ReceiveBounds
import AsprNet.Server.Framing
import AsprNet.Client.CommandLine
import AsprNet.Client.Wire
import AsprNet.Client.Session
import AsprNet.Upload
import AsprNet.Download
import AsprNet.Sending
import AsprNet.Session
import AsprNet.Lib.Highest
import AsprNet.BufferGrowth
import AsprNet.ArgumentBounds
import AsprNet.Ae.Registration
import AsprNet.Ae.Dispatch
import AsprNet.Ae.Batches
import AsprNet.Server.Pending
import AsprNet.Server.TableAccess
import AsprNet.Tokenizers
import AsprNet.BufferTerminator
import AsprNet.FileFailures
import AsprNet.Ae.Timers
import AsprNet.Ae.TimerRuns
import AsprNet.Ae.DeletedTimers
import AsprNet.CommandDispatch
import AsprNet.Client.Lines
import AsprNet.Ae.NearestTimer
import AsprNet.Ae.Arrays
import AsprNet.Lib.Family
import AsprNet.Lib.Lockstep
import AsprNet.Server.Channels
import AsprNet.Server.Isolation
import AsprNet.Client.Halves
import AsprNet.Server.Requests
import AsprNet.System.Service
import AsprNet.System.Streams
import AsprNet.System.Sessions
import AsprNet.System.Net
import AsprNet.System.Progress
import AsprNet.Server.Ownership
import AsprNet.Client.Connect
import AsprNet.Addresses
import AsprNet.Server.Main
