import FsChecking.F2fs.Fsck

/-!
# Consistency of mounted metadata

What the tables of a mounted file system should say, in terms of the graph that the storage holds:
the nodes that are reached from the root, the places that refer to them, and the blocks that
reached nodes own.
-/

namespace FsChecking.F2fs

open Lib

/-- The block stored at an address of the main area. -/
def Fs.blockAt (fs : Fs) (blk : Nat) : Option BlockData := storedAt fs.storage (phyblkToLba blk)

/-- The node stored at the address that the NAT gives it. -/
def Fs.nodeAt (fs : Fs) (nid : Nat) : NodeInfo := ((fs.blockAt (fs.nat.nat nid)).getD .ones).node

/-- The dentry block stored at an address. -/
def Fs.dentryAt (fs : Fs) (blk : Nat) : DentryBlock := ((fs.blockAt blk).getD .ones).dentry

/-- As what a node is referred to: as an inode, or as an index node of a file of some type. -/
inductive Role where
  | inode
  | index (fileType : FileType)

/-- A node that is reached from the root, and its role there. -/
inductive Reached (fs : Fs) : Nat → Role → Prop where
  /-- The root directory. -/
  | root : Reached fs rootFid .inode
  /-- An index node in a slot of an inode. -/
  | slot {ino slot : Nat} (parent : Reached fs ino .inode) (inside : slot < indexTableSize)
      (valid : (fs.nodeAt ino).inode.index slot ≠ invalidBlk) :
      Reached fs ((fs.nodeAt ino).inode.index slot) (.index (fs.nodeAt ino).inode.fileType)
  /-- An inode in a dentry of a directory. -/
  | dentry {nid entry slot : Nat} (parent : Reached fs nid (.index .dir))
      (inside : entry < indexSize) (mapped : (fs.nodeAt nid).index.index entry ≠ invalidBlk)
      (fits : slot < dentryPerBlock)
      (valid : ((fs.dentryAt ((fs.nodeAt nid).index.index entry)).dentries slot).ino ≠
        invalidBlk) :
      Reached fs ((fs.dentryAt ((fs.nodeAt nid).index.index entry)).dentries slot).ino .inode

/-- A place that can refer to a node. -/
inductive Place where
  /-- The fixed id of the root. -/
  | root
  /-- A slot of an inode. -/
  | slot (ino slot : Nat)
  /-- A dentry, in an entry of an index node. -/
  | dentry (nid entry slot : Nat)

/-- A place in a reached node refers to a node. -/
inductive Refers (fs : Fs) : Place → Nat → Prop where
  /-- The root directory. -/
  | root : Refers fs .root rootFid
  /-- A slot of an inode. -/
  | slot {ino slot : Nat} (parent : Reached fs ino .inode) (inside : slot < indexTableSize)
      (valid : (fs.nodeAt ino).inode.index slot ≠ invalidBlk) :
      Refers fs (.slot ino slot) ((fs.nodeAt ino).inode.index slot)
  /-- A dentry of a directory. -/
  | dentry {nid entry slot : Nat} (parent : Reached fs nid (.index .dir))
      (inside : entry < indexSize) (mapped : (fs.nodeAt nid).index.index entry ≠ invalidBlk)
      (fits : slot < dentryPerBlock)
      (valid : ((fs.dentryAt ((fs.nodeAt nid).index.index entry)).dentries slot).ino ≠
        invalidBlk) :
      Refers fs (.dentry nid entry slot)
        ((fs.dentryAt ((fs.nodeAt nid).index.index entry)).dentries slot).ino

/-- A block belongs to a reached node: as the block of the node itself, with the offset
`INVALID_BLK`, or as the block of one of its index entries. -/
inductive Owns (fs : Fs) : Nat → Nat → Nat → Prop where
  /-- The block of a node. -/
  | node {nid : Nat} {role : Role} (reached : Reached fs nid role) :
      Owns fs (fs.nat.nat nid) nid invalidBlk
  /-- The block of an index entry. -/
  | entry {nid entry : Nat} {fileType : FileType} (reached : Reached fs nid (.index fileType))
      (inside : entry < indexSize) (mapped : (fs.nodeAt nid).index.index entry ≠ invalidBlk) :
      Owns fs ((fs.nodeAt nid).index.index entry) nid entry

/-- The number of mapped entries of an index node. -/
def mappedEntries (node : NodeInfo) : Nat :=
  (List.range indexSize).countP fun entry => node.index.index entry ≠ invalidBlk

/-- The number of mapped entries of all index nodes of an inode. -/
def mappedBlocks (fs : Fs) (node : NodeInfo) : Nat :=
  ((List.range indexTableSize).map fun slot =>
    if node.inode.index slot = invalidBlk then 0
    else mappedEntries (fs.nodeAt (node.inode.index slot))).sum

/-- The mounted metadata is consistent. -/
structure Consistent (fs : Fs) : Prop where
  /-- Every allocated node is reached exactly once from the root. -/
  node : ∀ nid < nodeNr, fs.nat.nat nid ≠ invalidBlk → ∃ place, Refers fs place nid ∧
    ∀ other, Refers fs other nid → other = place
  /-- Blocks of reached nodes are inside the main area. -/
  below : ∀ {blk nid offset}, Owns fs blk nid offset → blk < mainBlkNr
  /-- Blocks of reached nodes are pairwise distinct. -/
  distinct : ∀ {blk nid offset nid' offset'}, Owns fs blk nid offset → Owns fs blk nid' offset' →
    nid = nid' ∧ offset = offset'
  /-- The SIT marks the blocks of reached nodes as valid. -/
  valid : ∀ {blk nid offset}, Owns fs blk nid offset →
    (fs.segments.segments (blk / blockPerSeg)).validBmp.getLsbD (blk % blockPerSeg) = true
  /-- The summary of a block names its owner. -/
  summary : ∀ {blk nid offset}, Owns fs blk nid offset →
    (fs.segments.segments (blk / blockPerSeg)).nids (blk % blockPerSeg) = nid ∧
      (fs.segments.segments (blk / blockPerSeg)).offset (blk % blockPerSeg) = offset
  /-- Every bit that is set in the SIT belongs to a reached node. -/
  owned : ∀ seg < mainSegNr, ∀ bit, (fs.segments.segments seg).validBmp.getLsbD bit = true →
    bit < blockPerSeg ∧ ∃ nid offset, Owns fs (phyBlock seg bit) nid offset
  /-- The SIT counts its bits. -/
  counted : ∀ seg < mainSegNr,
    (fs.segments.segments seg).validBlkNr = popCount (fs.segments.segments seg).validBmp 32
  /-- Index nodes count their mapped entries. -/
  validData : ∀ {nid fileType}, Reached fs nid (.index fileType) →
    (fs.nodeAt nid).index.validData = mappedEntries (fs.nodeAt nid)
  /-- Inodes count the mapped entries of their index nodes. -/
  blkNum : ∀ {nid}, Reached fs nid .inode →
    (fs.nodeAt nid).inode.blkNum = mappedBlocks fs (fs.nodeAt nid)

end FsChecking.F2fs
