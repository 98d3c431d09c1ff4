import Dynamo.Lib.ListChunks
import Dynamo.Lib.Abort
import Dynamo.Lib.Bytes
import Dynamo.Tokens.Block
import Dynamo.Tokens.Sequence
import Dynamo.Tokens.Refinement
import Dynamo.Tokens.Crate
import Dynamo.KvRouter.Protocols
import Dynamo.KvRouter.RadixTree
import Dynamo.KvRouter.Membership
import Dynamo.KvRouter.Frequency
import Dynamo.Lib.Mailbox
import Dynamo.KvRouter.Indexer
import Dynamo.Lib.Collections
import Dynamo.Lib.SortedMap
import Dynamo.BlockManager.Block
import Dynamo.BlockManager.Content
import Dynamo.BlockManager.Inactive
import Dynamo.BlockManager.Pool
import Dynamo.BlockManager.Accounting
import Dynamo.BlockManager.Safety
import Dynamo.BlockManager.Requests
import Dynamo.BlockManager.Registration
import Dynamo.BlockManager.Conservation
import Dynamo.Pipeline.TwoPart
import Dynamo.Pipeline.Framing
import Dynamo.Pipeline.Context
import Dynamo.Lib.EndMarker
import Dynamo.Pipeline.CallHome
import Dynamo.Pipeline.Delivery
import Dynamo.Pipeline.Progress
import Dynamo.BlockManager.Eviction
import Dynamo.KvRouter.Scheduler
import Dynamo.Lib.PrefixCount
import Dynamo.KvRouter.Overlap
import Dynamo.Lib.Serde
import Dynamo.BlockManager.Layout
import Dynamo.BlockManager.Nixl
import Dynamo.BlockManager.Remote
import Dynamo.Lib.Memory
import Dynamo.BlockManager.Placement
import Dynamo.BlockManager.Transfer
import Dynamo.Lib.Search
import Dynamo.Backend.Decoder
import Dynamo.Tokenizers.StopSequence
import Dynamo.Lib.Lines
import Dynamo.Protocols.Codec
import Dynamo.KeyValueStore.Memory
import Dynamo.Runtime.Discovery
import Dynamo.Http.ModelWatcher
import Dynamo.Protocols.OpenAI
import Dynamo.Protocols.Aggregator
import Dynamo.Http.Service
import Dynamo.Recorder
import Dynamo.Kv.Reuse
import Dynamo.Kv.Engine
