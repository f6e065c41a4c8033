import Innobase.Partition
import Innobase.Chain
import Innobase.PartitionInv
import Innobase.PartitionOps
import Innobase.PartitionErase
import Innobase.PartitionRun
import Innobase.PageWalk
import Innobase.Ahi
import Innobase.BuildDrop
import Innobase.Latch
import Innobase.Guess
import Innobase.Fold
import Innobase.Runs
import Innobase.Insert
import Innobase.InsertNode
import Innobase.Lifecycle
import Innobase.Recommend
import Innobase.Callbacks
import Innobase.Coherence
import Innobase.BufPool
import Innobase.SysTablespace
import Innobase.SysTablespaceItems
import Innobase.Heuristic
import Innobase.Validate
import Innobase.SysTablespaceOpen
import Innobase.SysTablespaceCreate
