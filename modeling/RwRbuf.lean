import RwRbuf.Lib.LinkedList
import RwRbuf.Lib.Fallible
import RwRbuf.Lib.ThreadCount
import RwRbuf.Lib.QueuePool
import RwRbuf.Lib.KeyedChains
import RwRbuf.Lib.PendingOperations
import RwRbuf.Lib.WriteBackCache
import RwRbuf.Lib.LruCache
import RwRbuf.Lib.SlotTable
import RwRbuf.Lib.NandFlash
import RwRbuf.Firmware.Geometry
import RwRbuf.Firmware.AddressMap
import RwRbuf.Firmware.BlockLists
import RwRbuf.Firmware.SliceMap
import RwRbuf.Firmware.GarbageCollection
import RwRbuf.Firmware.SliceWrite
import RwRbuf.Firmware.InitAddressMap
import RwRbuf.Firmware.BadBlocks
import RwRbuf.Firmware.RowAddress
import RwRbuf.Firmware.BadBlockTable
import RwRbuf.Firmware.BlockRoles
import RwRbuf.Firmware.SliceWriteSpec
import RwRbuf.Firmware.FlashStore
import RwRbuf.Firmware.FreeSpace
import RwRbuf.Firmware.ReserveBlock
import RwRbuf.Firmware.DieExhaustion
import RwRbuf.Firmware.Capacity
import RwRbuf.Firmware.RowAddrDep
import RwRbuf.Firmware.RowAddrDepOrder
import RwRbuf.Firmware.BlockedReads
import RwRbuf.Firmware.RowAddrDepOvertake
import RwRbuf.Firmware.HostDma
import RwRbuf.Firmware.DmaRegisters
import RwRbuf.Firmware.SliceRequests
import RwRbuf.Firmware.SliceTiling
import RwRbuf.Firmware.DataBuffer
import RwRbuf.Firmware.BufferFiling
import RwRbuf.Firmware.LinkedBuffer
import RwRbuf.Firmware.SliceBuffers
import RwRbuf.Firmware.RequestEngine
import RwRbuf.Firmware.SliceTranslation
import RwRbuf.Firmware.RequestMoves
import RwRbuf.Firmware.RequestQueues
import RwRbuf.Firmware.RequestChains
import RwRbuf.Firmware.LinkedPool
import RwRbuf.Firmware.LinkedPoolRuns
import RwRbuf.Firmware.CommandLedger
import RwRbuf.Firmware.RequestLedger
import RwRbuf.Firmware.RequestLedgerMoves
import RwRbuf.Firmware.RequestOrder
import RwRbuf.Firmware.RequestWaits
import RwRbuf.Firmware.SliceStages
import RwRbuf.Firmware.ReadStalls
import RwRbuf.Firmware.DmaRecords
import RwRbuf.Firmware.DmaMoves
import RwRbuf.Firmware.DmaOrder
import RwRbuf.Firmware.DmaProgress
import RwRbuf.Firmware.SyncAvail
import RwRbuf.Firmware.DmaWalk
import RwRbuf.Firmware.RxBeforeTx
import RwRbuf.Firmware.CompletionPosted
import RwRbuf.Firmware.CustomCmdWalk
import RwRbuf.Firmware.DeviceImage
import RwRbuf.Firmware.OutstandingTransfers
import RwRbuf.Firmware.BufferCache
import RwRbuf.Firmware.DataConsistency
import RwRbuf.Firmware.HostReads
import RwRbuf.Firmware.HostTimeTable
import RwRbuf.Firmware.HostTimeWork
import RwRbuf.Firmware.HostTimeRuns
import RwRbuf.Firmware.WaySchedule
import RwRbuf.Firmware.WayScheduleRuns
import RwRbuf.Innodb.BufBlock
import RwRbuf.Innodb.VictimAccess
import RwRbuf.Innodb.VictimInvariant
import RwRbuf.Innodb.VictimReplacement
import RwRbuf.Innodb.RwRead
import RwRbuf.Innodb.BufPool
import RwRbuf.Innodb.PageEviction
import RwRbuf.Innodb.FreeBlocks
import RwRbuf.Innodb.BlockPlaces
import RwRbuf.Innodb.BlocksKept
import RwRbuf.Innodb.PageLookup
import RwRbuf.Innodb.RwCommand
import RwRbuf.Innodb.FileSystem
import RwRbuf.Innodb.RwFileIo
import RwRbuf.Innodb.RwMutexEntry
import RwRbuf.Innodb.FileCacheRuns
import RwRbuf.Innodb.RwFileErrors
import RwRbuf.Innodb.ReadCompletion
import RwRbuf.Innodb.Doublewrite
