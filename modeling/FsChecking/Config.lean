import Mathlib.Algebra.GroupWithZero.Nat

/-!
# Sizes of the simulated file system

The constants of `config.h`, `fs_simulator.h` and `reference_fs.h` that the exhaustive tester's
file system simulator is compiled with. The source fixes them with `#define`, so the model fixes
them too: several of its results depend on how the metadata areas are laid out.
-/

namespace FsChecking

/-- `CKPT_BLK_NR`: one header, one NAT journal and four SIT journal blocks. -/
abbrev ckptBlkNr : Nat := 6
/-- `CKPT_START_BLK`. -/
abbrev ckptStartBlk : Nat := 0
/-- `SIT_JOURNAL_BLK`. -/
abbrev sitJournalBlk : Nat := 4
/-- `SIT_START_BLK`: the two checkpoint slots come first. -/
abbrev sitStartBlk : Nat := ckptStartBlk + ckptBlkNr * 2
/-- `SIT_BLK_NR`. -/
abbrev sitBlkNr : Nat := 10
/-- `NAT_START_BLK`: every SIT block has two copies. -/
abbrev natStartBlk : Nat := sitStartBlk + 2 * sitBlkNr
/-- `NAT_BLK_NR`. -/
abbrev natBlkNr : Nat := 4
/-- `SSA_START_BLK`: every NAT block has two copies. -/
abbrev ssaStartBlk : Nat := natStartBlk + 2 * natBlkNr
/-- `BLOCK_PER_SEG`. -/
abbrev blockPerSeg : Nat := 16
/-- `MAIN_SEG_OFFSET`: segments in front of the main area. -/
abbrev mainSegOffset : Nat := 8
/-- `MAIN_SEG_NR`. -/
abbrev mainSegNr : Nat := 60
/-- `MAIN_BLK_NR`. -/
abbrev mainBlkNr : Nat := mainSegNr * blockPerSeg
/-- `SEG_NUM`. -/
abbrev segNum : Nat := mainSegOffset + mainSegNr
/-- `TOTAL_BLOCK_NR`. -/
abbrev totalBlockNr : Nat := segNum * blockPerSeg
/-- `JOURNAL_NR`. -/
abbrev journalNr : Nat := 16
/-- `SIT_ENTRY_PER_BLK`. -/
abbrev sitEntryPerBlk : Nat := 6
/-- `RESERVED_SEG`: segments kept for closing, deleting and syncing. -/
abbrev reservedSeg : Nat := 6
/-- `OP_SEGMENT`: the default number of over-provision segments. -/
abbrev opSegment : Nat := 20
/-- `NAT_ENTRY_PER_BLK`. -/
abbrev natEntryPerBlk : Nat := 32
/-- `NODE_NR`: inodes and index nodes together. -/
abbrev nodeNr : Nat := 128
/-- `MAX_PAGE_NUM`. -/
abbrev maxPageNum : Nat := 2048
/-- `MAX_OPEN_FILE`. -/
abbrev maxOpenFile : Nat := 8
/-- `INDEX_SIZE`: block addresses in one index node. -/
abbrev indexSize : Nat := 32
/-- `INDEX_TABLE_SIZE`: index nodes of one inode. -/
abbrev indexTableSize : Nat := 16
/-- `MAX_FILE_BLKS`. -/
abbrev maxFileBlks : Nat := indexSize * indexTableSize
/-- `DENTRY_PER_BLOCK`. -/
abbrev dentryPerBlock : Nat := 4
/-- `FN_SLOT_LEN`: characters of a file name that one dentry slot holds. -/
abbrev fnSlotLen : Nat := 2
/-- `MAX_DENTRY_LEVEL`. -/
abbrev maxDentryLevel : Nat := 4
/-- `BLOCK_SIZE` in bytes. -/
abbrev blockSize : Nat := 512
/-- `MAX_PATH_SIZE`. -/
abbrev maxPathSize : Nat := 127
/-- `ROOT_FID`. -/
abbrev rootFid : Nat := 0

/-- `INVALID_BLK` stored in a `WORD`: node ids, block and segment numbers. -/
abbrev invalidBlk : Nat := 0xFFFF
/-- `INVALID_BLK` stored in a `UINT`: page and open-table indices. -/
abbrev invalidPage : Nat := 0xFFFFFFFF
/-- `NID_IN_USE`: the NAT entry of a node that is allocated and not yet written. -/
abbrev nidInUse : Nat := 0xFFFE

/-- A value stored in a `WORD`. -/
abbrev word (value : Nat) : Nat := value % 2 ^ 16
/-- A value stored in a `DWORD` or `UINT`. -/
abbrev dword (value : Nat) : Nat := value % 2 ^ 32

/-- `ROUND_UP_DIV`. -/
abbrev roundUpDiv (value unit : Nat) : Nat := (value + unit - 1) / unit

end FsChecking
