import Comsg.Lib.Transition
import Comsg.Lib.Ring
import Comsg.Lib.Mask
import Comsg.Include.Coport
import Comsg.Ipcd.Coport
import Comsg.Ipcd.Cocarrier
import Comsg.Proofs.Ipcd.Coport
import Comsg.Proofs.Ipcd.Fifo
import Comsg.Proofs.Ipcd.Close
import Comsg.Ipcd.Delivery
import Comsg.Proofs.Ipcd.Delivery
import Comsg.Ipcd.CopollDeliver
import Comsg.Proofs.Ipcd.EventQueue
import Comsg.Ipcd.System
import Comsg.Proofs.Ipcd.System
import Comsg.Proofs.Ipcd.NotifierLoop
import Comsg.Proofs.Ipcd.PortView
import Comsg.Proofs.Ipcd.Notifications
import Comsg.Proofs.Ipcd.StatusLock
import Comsg.Proofs.Ipcd.ClosedBit
import Comsg.Proofs.Ipcd.Reopen
import Comsg.Proofs.Ipcd.Listeners
import Comsg.Proofs.Ipcd.LostWakeup
import Comsg.Proofs.Ipcd.Announced
import Comsg.Proofs.Ipcd.PollResult
import Comsg.Proofs.Ipcd.DeliveryAssert
import Comsg.Proofs.Ipcd.Progress
import Comsg.Proofs.Ipcd.Deadlock
import Comsg.Lib.Memcpy
import Comsg.Libcomsg.Cochannel
import Comsg.Proofs.Libcomsg.CochannelRing
import Comsg.Libcomsg.CochannelCalls
import Comsg.Proofs.Libcomsg.CochannelCalls
import Comsg.Proofs.Libcomsg.CochannelQueue
import Comsg.Libcomsg.Copipe
import Comsg.Proofs.Libcomsg.Copipe
import Comsg.Proofs.Libcomsg.CopipeLength
import Comsg.Proofs.Libcomsg.CopipeClose
import Comsg.Lib.Cstring
import Comsg.Lib.Capability
import Comsg.Include.Namespace
import Comsg.Nsd.Table
import Comsg.Nsd.Handlers
import Comsg.Proofs.Nsd.Effect
import Comsg.Proofs.Nsd.Tables
import Comsg.Proofs.Nsd.Directory
import Comsg.Proofs.Nsd.Names
import Comsg.Proofs.Nsd.Rights
import Comsg.Proofs.Nsd.Select
import Comsg.Lib.Members
import Comsg.Proofs.Nsd.Tree
import Comsg.Proofs.Nsd.Faults
import Comsg.Proofs.Nsd.Typing
import Comsg.Lib.Threads
import Comsg.Nsd.Workers
import Comsg.Proofs.Nsd.Coinsert
import Comsg.Proofs.Nsd.Coupdate
import Comsg.Lib.Queue
import Comsg.Lib.Bounded
import Comsg.Ipcd.Validate
import Comsg.Proofs.Ipcd.Validate
import Comsg.Ipcd.Attachments
import Comsg.Proofs.Ipcd.Attachments
import Comsg.Nsd.Clients
import Comsg.Proofs.Nsd.Codrop
import Comsg.Proofs.Nsd.Reservation
import Comsg.Nsd.Capacity
import Comsg.Proofs.Nsd.Capacity
import Comsg.Proofs.Nsd.Replies
import Comsg.Ipcd.Endpoints
import Comsg.Proofs.Ipcd.Endpoints
import Comsg.Ipcd.Coopen
import Comsg.Proofs.Ipcd.Coopen
import Comsg.Proofs.Ipcd.Free
import Comsg.Lib.Compression
import Comsg.Ipcd.Cosend
import Comsg.Proofs.Ipcd.Cosend
import Comsg.Coeventd.Coevent
import Comsg.Coeventd.Trigger
import Comsg.Proofs.Coeventd.Trigger
import Comsg.Coeventd.Daemon
import Comsg.Proofs.Coeventd.Effect
import Comsg.Proofs.Coeventd.Records
import Comsg.Proofs.Coeventd.FuncTable
import Comsg.Proofs.Coeventd.Deaths
import Comsg.Libcomsg.Coservice
import Comsg.Proofs.Libcomsg.Coservice
import Comsg.Coserviced.Table
import Comsg.Proofs.Coserviced.Table
import Comsg.Coprocd.Module
import Comsg.Proofs.Coprocd.KillModule
import Comsg.Coprocd.Monitor
import Comsg.Proofs.Coprocd.Halt
import Comsg.Coeventd.Requests
import Comsg.Proofs.Coeventd.Threads
import Comsg.Proofs.Coeventd.Answers
import Comsg.Proofs.Coeventd.Handles
import Comsg.Lib.Fuel
import Comsg.Libcomsg.UkernCalls
import Comsg.Proofs.Libcomsg.UkernCalls
import Comsg.Proofs.Libcomsg.BusyWorkers
import Comsg.Coserviced.Handlers
import Comsg.Proofs.Coserviced.Services
import Comsg.Proofs.Coserviced.Handlers
import Comsg.Ipcd.ListenerList
import Comsg.Proofs.Ipcd.Levent
import Comsg.Proofs.Nsd.Counters
import Comsg.Coprocd.InitModule
import Comsg.Proofs.Coprocd.InitModule
import Comsg.Coprocd.Core
import Comsg.Proofs.Coprocd.Core
import Comsg.Coprocd.Capvec
import Comsg.Coprocd.Children
import Comsg.Proofs.Coprocd.Capvec
import Comsg.Proofs.Coprocd.Children
import Comsg.Proofs.Coprocd.Restart
import Comsg.Ccmalloc.Buckets
import Comsg.Ccmalloc.Heap
import Comsg.Proofs.Ccmalloc.Buckets
import Comsg.Ccmalloc.Threads
import Comsg.Proofs.Ccmalloc.Free
import Comsg.Proofs.Ccmalloc.Threads
import Comsg.Lib.RefCount
import Comsg.Coeventd.Counters
import Comsg.Proofs.Coeventd.CountEffect
import Comsg.Proofs.Coeventd.Counters
import Comsg.Nsd.Authority
import Comsg.Proofs.Nsd.Confinement
import Comsg.Proofs.Coserviced.Discovery
import Comsg.Lib.Sealing
import Comsg.Lib.CheriMachine
import Comsg.Libcomsg.CinvokeStubs
import Comsg.Proofs.Libcomsg.CinvokeStubs
import Comsg.Ccmalloc.Emptier
import Comsg.Proofs.Ccmalloc.Emptier
import Comsg.Lib.RobustMutex
import Comsg.Libcomsg.ObjectTypes
import Comsg.Proofs.Libcomsg.ObjectTypes
import Comsg.Libcomsg.CoportTypes
import Comsg.Proofs.Libcomsg.CoportTypes
import Comsg.Lib.FuelSame
import Comsg.Ukernel.Services
import Comsg.Libcocall.Endpoint
import Comsg.Proofs.Libcocall.Endpoint
import Comsg.Proofs.Ukernel.Wiring
import Comsg.Proofs.Ukernel.Routing
import Comsg.Libcomsg.NamedCoports
import Comsg.Proofs.Libcomsg.NamedCoports
