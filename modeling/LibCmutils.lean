import LibCmutils.Array.AnyComparator
import LibCmutils.Array.Basic
import LibCmutils.Array.Sorted
import LibCmutils.Array.Unsorted
import LibCmutils.Concurrent.Cond
import LibCmutils.Concurrent.RWLock
import LibCmutils.Concurrent.ThreadPool
import LibCmutils.Concurrent.ThreadPoolDestroy
import LibCmutils.Concurrent.ThreadRegistry
import LibCmutils.Concurrent.Timer
import LibCmutils.Concurrent.TimerExecutions
import LibCmutils.Concurrent.TimerOrder
import LibCmutils.Concurrent.TimerOwnership
import LibCmutils.Concurrent.TimerReschedule
import LibCmutils.Config.Basic
import LibCmutils.Config.Consistency
import LibCmutils.Config.Integers
import LibCmutils.Config.LogicalLines
import LibCmutils.Config.RoundTrip
import LibCmutils.Http.Framing
import LibCmutils.Http.Request
import LibCmutils.Http.Response
import LibCmutils.Http.Rest
import LibCmutils.Http.SocketPool
import LibCmutils.Http.Url
import LibCmutils.Json.Bounds
import LibCmutils.Json.Clone
import LibCmutils.Json.Descent
import LibCmutils.Json.Document
import LibCmutils.Json.Grammar
import LibCmutils.Json.Insertion
import LibCmutils.Json.Number
import LibCmutils.Json.Parser
import LibCmutils.Json.RoundTrip
import LibCmutils.Json.Scanner
import LibCmutils.Json.Unicode
import LibCmutils.Json.Value
import LibCmutils.Lib.Block
import LibCmutils.Lib.ByteStream
import LibCmutils.Lib.CNumber
import LibCmutils.Lib.CString
import LibCmutils.Lib.Comparator
import LibCmutils.Lib.Decimal
import LibCmutils.Lib.DoublyLinked
import LibCmutils.Lib.Draining
import LibCmutils.Lib.FileTree
import LibCmutils.Lib.Files
import LibCmutils.Lib.Gathering
import LibCmutils.Lib.Glob
import LibCmutils.Lib.Heap
import LibCmutils.Lib.HeapTree
import LibCmutils.Lib.Lawful
import LibCmutils.Lib.Linked
import LibCmutils.Lib.Mutual
import LibCmutils.Lib.Occurrence
import LibCmutils.Lib.OrderedMap
import LibCmutils.Lib.Owners
import LibCmutils.Lib.Relabel
import LibCmutils.Lib.SortedList
import LibCmutils.Lib.Threads
import LibCmutils.Lib.TimeFormat
import LibCmutils.Lib.Traced
import LibCmutils.Lib.Transition
import LibCmutils.Lib.Utf8
import LibCmutils.List.Basic
import LibCmutils.List.Iteration
import LibCmutils.List.Layout
import LibCmutils.List.Refinement
import LibCmutils.Logger.Appender
import LibCmutils.Logger.AppenderInvariant
import LibCmutils.Logger.AppenderThreads
import LibCmutils.Logger.Asynchronous
import LibCmutils.Logger.Basic
import LibCmutils.Logger.ConfigClean
import LibCmutils.Logger.Configure
import LibCmutils.Logger.DatePattern
import LibCmutils.Logger.Lifetime
import LibCmutils.Logger.Literals
import LibCmutils.Logger.Names
import LibCmutils.Logger.Pattern
import LibCmutils.Logger.Release
import LibCmutils.Logger.Rolling
import LibCmutils.Logger.Routing
import LibCmutils.Logger.Setup
import LibCmutils.Logger.SocketTeardown
import LibCmutils.Logger.Width
import LibCmutils.Map.Basic
import LibCmutils.Map.Counting
import LibCmutils.Map.Invariant
import LibCmutils.Map.Ownership
import LibCmutils.Map.Refinement
import LibCmutils.Map.Table
import LibCmutils.Memory.Accounting
import LibCmutils.Memory.Invariant
import LibCmutils.Memory.Recycle
import LibCmutils.Memory.Soundness
import LibCmutils.Network.SocketStream
import LibCmutils.Pattern.Basic
import LibCmutils.Pattern.Semantics
import LibCmutils.Pool.Basic
import LibCmutils.Pool.Conservation
import LibCmutils.Process.Chain
import LibCmutils.Process.Invariant
import LibCmutils.Process.Lifecycle
import LibCmutils.Process.Reader
import LibCmutils.String.Basic
import LibCmutils.String.Builder
import LibCmutils.String.ByteBuffer
import LibCmutils.String.Case
import LibCmutils.String.Conversion
import LibCmutils.String.Replace
import LibCmutils.String.Split
import LibCmutils.String.StringArray
import LibCmutils.String.Substring
import LibCmutils.String.Tokens
import LibCmutils.String.Trim
import LibCmutils.System.FileFind
import LibCmutils.System.FileRead
import LibCmutils.System.FileStream
import LibCmutils.System.PathCreate
import LibCmutils.Xml.Bounds
import LibCmutils.Xml.Comment
import LibCmutils.Xml.Declaration
import LibCmutils.Xml.Descent
import LibCmutils.Xml.Escape
import LibCmutils.Xml.EscapeRuns
import LibCmutils.Xml.Forest
import LibCmutils.Xml.Header
import LibCmutils.Xml.Lexeme
import LibCmutils.Xml.Lookahead
import LibCmutils.Xml.Nesting
import LibCmutils.Xml.Node
import LibCmutils.Xml.Parser
import LibCmutils.Xml.ReadOnly
import LibCmutils.Xml.References
import LibCmutils.Xml.Robust
import LibCmutils.Xml.RoundTrip
import LibCmutils.Xml.Scanner
import LibCmutils.Xml.StackRun
import LibCmutils.Xml.ToJson
import LibCmutils.Xml.Tree
