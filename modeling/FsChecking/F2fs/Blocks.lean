import FsChecking.Config

/-!
# Blocks and errors of the simulated F2FS

The block formats of `blocks.h` and `f2fs_segment.h` and the exceptions that the simulator throws.
A block is a type tag and a union; the model keeps every view of the union as a field of its own.
On an image of arbitrary blocks this admits every reading of every block, and the simulator itself
reads a block only through the view it was written with. Arrays are functions of the index, and
`memset(.., 0xFF, ..)` is the value with all bits set.
-/

namespace FsChecking.F2fs

/-- `ERROR_CODE`, the codes that the simulator returns or throws. -/
inductive ErrorCode where
  | ok | noSpace | maxOpenFile | general | readNoMappingData | createExist | create | openFile
  | deleteFile | deleteDir | nonEmpty | sync | parentNotExist | wrongPath | ckptFail
  | wrongBlockType | sitMismatch | phyAddrMismatch | invalidIndex | invalidCheckpoint | deadNid
  | lostNid | doubledNid | invalidNid | deadBlk | lostBlk | doubledBlk | invalidBlk
  deriving DecidableEq

/-- The ways in which a call ends without returning. -/
inductive Fault where
  /-- `THROW_FS_ERROR`: code, message and its arguments. -/
  | fs (code : ErrorCode) (message : String) (arguments : List Nat)
  /-- `THROW_ERROR` with `ERR_USER`. -/
  | user (message : String) (arguments : List Nat)
  /-- `THROW_ERROR` with `ERR_APP`. -/
  | app (message : String) (arguments : List Nat)
  /-- The C++ program leaves its arrays, follows a null pointer or breaks the contract of a
  library function: its behaviour is undefined from here on. -/
  | undefined
  deriving DecidableEq

/-- The error code of an exception, if it is one of the simulator's own. -/
def Fault.code? : Fault → Option ErrorCode
  | .fs code _ _ => some code
  | _ => none

/-- `F2FS_FILE_TYPE`. A tag outside the enumeration behaves as `unknown`: tags are only ever
compared with the directory tag. -/
inductive FileType where
  | reg | dir | unknown
  deriving DecidableEq

/-- `BLOCK_DATA::BLOCK_TYPE`, with the values outside the enumeration. -/
inductive BlockType where
  | free | inode | index | dentry | sit | nat | fileData | ckptHeader | ckptNatJournal
  | ckptSitJournal
  | other (tag : Nat)
  deriving DecidableEq

/-- The number that stores a block type. -/
def BlockType.toNat : BlockType → Nat
  | .free => invalidPage
  | .inode => 0
  | .index => 1
  | .dentry => 2
  | .sit => 3
  | .nat => 4
  | .fileData => 5
  | .ckptHeader => 6
  | .ckptNatJournal => 7
  | .ckptSitJournal => 8
  | .other tag => tag

/-- The block type stored by a number. -/
def BlockType.ofNat (tag : Nat) : BlockType :=
  if tag = invalidPage then .free
  else match tag with
    | 0 => .inode
    | 1 => .index
    | 2 => .dentry
    | 3 => .sit
    | 4 => .nat
    | 5 => .fileData
    | 6 => .ckptHeader
    | 7 => .ckptNatJournal
    | 8 => .ckptSitJournal
    | tag => .other tag

/-- A number is read back from the block type it stores. -/
@[simp] theorem BlockType.toNat_ofNat (tag : Nat) : (BlockType.ofNat tag).toNat = tag := by
  unfold ofNat
  split
  · rename_i all
    exact all.symm
  · split <;> rfl

/-- `BT_HOT__DATA`. -/
abbrev btHotData : Nat := 4
/-- `BT_HOT__NODE`. -/
abbrev btHotNode : Nat := 5
/-- `BT_TEMP_NR`: the number of logs, and the temperature of a free segment. -/
abbrev btTempNr : Nat := 6

/-- `INODE`. -/
structure Inode where
  /-- `blk_num`: mapped blocks. -/
  blkNum : Nat
  /-- `file_size` in bytes. -/
  fileSize : Nat
  /-- `file_type`. -/
  fileType : FileType
  /-- `ref_count`. -/
  refCount : Nat
  /-- `nlink`. -/
  nlink : Nat
  /-- `index`: the index nodes of the file. -/
  index : Nat → Nat

/-- `INDEX_NODE`. -/
structure IndexNode where
  /-- `valid_data`: mapped entries. -/
  validData : Nat
  /-- `index`: block addresses. -/
  index : Nat → Nat

/-- `NODE_INFO`; the union of inode and index node is kept as two fields. -/
structure NodeInfo where
  /-- `m_nid`. -/
  nid : Nat
  /-- `m_ino`: the inode that the node belongs to. -/
  ino : Nat
  /-- `page_id`: the page that holds the node. -/
  pageId : Nat
  /-- The node as an inode. -/
  inode : Inode
  /-- The node as an index node. -/
  index : IndexNode

/-- `DENTRY`. -/
structure Dentry where
  /-- `ino`. -/
  ino : Nat
  /-- `hash`. -/
  hash : Nat
  /-- `name_len`. -/
  nameLen : Nat

/-- `DENTRY_BLOCK`; the name slots are one array of characters. -/
structure DentryBlock where
  /-- `bitmap`: the slots in use. -/
  bitmap : BitVec 32
  /-- `filenames`. -/
  filenames : Nat → Char
  /-- `dentries`. -/
  dentries : Nat → Dentry

/-- `SEG_INFO`: the SIT entry of a segment. -/
structure SegInfo where
  /-- `valid_bmp`. -/
  validBmp : BitVec 32
  /-- `valid_blk_nr`. -/
  validBlkNr : Nat
  /-- `seg_temp`. -/
  segTemp : Nat

/-- `SUMMARY`: the owner of a block. -/
structure Summary where
  /-- `nid`. -/
  nid : Nat
  /-- `offset`. -/
  offset : Nat

/-- `CURSEG_INFO`: a log head. -/
structure CursegInfo where
  /-- `seg_no`. -/
  segNo : Nat
  /-- `blk_offset`: the next block to write. -/
  blkOffset : Nat

/-- `NAT_JOURNAL_ENTRY` and `SIT_JOURNAL_ENTRY`: a table index and the entry to store there. -/
structure JournalEntry (ι : Type) where
  /-- `nid` or `seg_no`. -/
  key : Nat
  /-- `phy_blk` or `seg_info`. -/
  value : ι

/-- `CKPT_HEAD`. -/
structure CkptHead where
  /-- `cur_segs`. -/
  curSegs : Nat → CursegInfo
  /-- `nat_journal_nr`. -/
  natJournalNr : Nat
  /-- `sit_journal_nr`. -/
  sitJournalNr : Nat
  /-- `sit_ver_bitmap`: which copy of each SIT block is current. -/
  sitVerBitmap : BitVec 32
  /-- `nat_ver_bitmap`: which copy of each NAT block is current. -/
  natVerBitmap : BitVec 32
  /-- `ver_open`. -/
  verOpen : Nat
  /-- `ver_close`. -/
  verClose : Nat

/-- `CKPT_BLOCK`: the checkpoint in memory. -/
structure CkptBlock where
  /-- `header`. -/
  header : CkptHead
  /-- `nat_journals`. -/
  natJournals : Nat → JournalEntry Nat
  /-- `sit_journals`. -/
  sitJournals : Nat → JournalEntry SegInfo

/-- `FILE_DATA`: the stamp of a data block. -/
structure FileData where
  /-- `fid`. -/
  fid : Nat
  /-- `offset`: the block of the file. -/
  offset : Nat
  deriving DecidableEq

/-- `BLOCK_DATA`. -/
structure BlockData where
  /-- `m_type`. -/
  blockType : BlockType
  /-- `node`. -/
  node : NodeInfo
  /-- `dentry`. -/
  dentry : DentryBlock
  /-- `sit.sit_entries`. -/
  sit : Nat → SegInfo
  /-- `nat.nat`. -/
  nat : Nat → Nat
  /-- `ssa.entries`. -/
  ssa : Nat → Summary
  /-- `file`. -/
  file : FileData
  /-- `ckpt_header`. -/
  ckptHeader : CkptHead
  /-- `ckpt_nat_nournal.nat_journals`. -/
  natJournal : Nat → JournalEntry Nat
  /-- `ckpt_sit_nournal.sit_journals`. -/
  sitJournal : Nat → JournalEntry SegInfo

/-- An inode with all bits set. -/
def Inode.ones : Inode :=
  { blkNum := invalidPage, fileSize := invalidPage, fileType := .unknown, refCount := invalidPage
    nlink := invalidPage, index := fun _ => invalidBlk }

/-- An index node with all bits set. -/
def IndexNode.ones : IndexNode := { validData := invalidPage, index := fun _ => invalidBlk }

/-- A node with all bits set. -/
def NodeInfo.ones : NodeInfo :=
  { nid := invalidBlk, ino := invalidBlk, pageId := invalidPage, inode := .ones, index := .ones }

/-- A dentry with all bits set. -/
def Dentry.ones : Dentry := { ino := invalidBlk, hash := invalidBlk, nameLen := invalidBlk }

/-- A dentry block with all bits set. -/
def DentryBlock.ones : DentryBlock :=
  { bitmap := BitVec.allOnes 32, filenames := fun _ => Char.ofNat 255, dentries := fun _ => .ones }

/-- A SIT entry with all bits set. -/
def SegInfo.ones : SegInfo :=
  { validBmp := BitVec.allOnes 32, validBlkNr := invalidPage, segTemp := invalidPage }

/-- A log head with all bits set. -/
def CursegInfo.ones : CursegInfo := { segNo := invalidBlk, blkOffset := invalidBlk }

/-- A checkpoint header in which every bit is `bit`. -/
def CkptHead.filled (bit : Bool) : CkptHead :=
  { curSegs := fun _ => if bit then .ones else { segNo := 0, blkOffset := 0 }
    natJournalNr := if bit then invalidPage else 0
    sitJournalNr := if bit then invalidPage else 0
    sitVerBitmap := BitVec.fill 32 bit
    natVerBitmap := BitVec.fill 32 bit
    verOpen := if bit then invalidPage else 0
    verClose := if bit then invalidPage else 0 }

/-- `memset(&block, 0xFF, sizeof(BLOCK_DATA))`. -/
def BlockData.ones : BlockData :=
  { blockType := .free
    node := .ones
    dentry := .ones
    sit := fun _ => .ones
    nat := fun _ => invalidBlk
    ssa := fun _ => { nid := invalidBlk, offset := invalidBlk }
    file := { fid := invalidBlk, offset := invalidBlk }
    ckptHeader := .filled true
    natJournal := fun _ => { key := invalidBlk, value := invalidBlk }
    sitJournal := fun _ => { key := invalidBlk, value := .ones } }

/-- `memset(&m_checkpoint, 0, sizeof(m_checkpoint))`. -/
def CkptBlock.zero : CkptBlock :=
  { header := .filled false
    natJournals := fun _ => { key := 0, value := 0 }
    sitJournals := fun _ =>
      { key := 0, value := { validBmp := 0, validBlkNr := 0, segTemp := 0 } } }

end FsChecking.F2fs
