import ReplicatedKv.Hash.Digest

/-! # BLAKE3

The unkeyed BLAKE3 hash with 32 bytes of output, which builds the state commitment.  The input is
cut into chunks of 1024 bytes, the leaves of a binary tree in which a left subtree is always the
largest complete one that leaves something for the right.

* `Node` — the input of one compression that still waits for its role (inner node or root).
* `chunkNode` — the node of one chunk, its blocks of 64 bytes chained.
* `treeNode` — the node of a sequence of chunks.
-/

namespace ReplicatedKv.Blake3

/-- The starting words, which are also those of SHA-256. -/
def start : Vector UInt32 8 :=
  #v[0x6a09e667, 0xbb67ae85, 0x3c6ef372, 0xa54ff53a, 0x510e527f, 0x9b05688c, 0x1f83d9ab, 0x5be0cd19]

def chunkStart : UInt32 := 1
def chunkEnd : UInt32 := 2
def parent : UInt32 := 4
def rootFlag : UInt32 := 8

/-- Mixes two message words into one column or diagonal of the state. -/
def quarter (s : Vector UInt32 16) (i j k l : Fin 16) (x y : UInt32) : Vector UInt32 16 :=
  let a := s[i] + s[j] + x
  let d := rotateRight (s[l] ^^^ a) 16
  let c := s[k] + d
  let b := rotateRight (s[j] ^^^ c) 12
  let a := a + b + y
  let d := rotateRight (d ^^^ a) 8
  let c := c + d
  let b := rotateRight (b ^^^ c) 7
  (((s.set i a).set j b).set k c).set l d

def round (s m : Vector UInt32 16) : Vector UInt32 16 :=
  let s := quarter s 0 4 8 12 m[0] m[1]
  let s := quarter s 1 5 9 13 m[2] m[3]
  let s := quarter s 2 6 10 14 m[4] m[5]
  let s := quarter s 3 7 11 15 m[6] m[7]
  let s := quarter s 0 5 10 15 m[8] m[9]
  let s := quarter s 1 6 11 12 m[10] m[11]
  let s := quarter s 2 7 8 13 m[12] m[13]
  quarter s 3 4 9 14 m[14] m[15]

/-- The order in which the next round takes the message words. -/
def permute (m : Vector UInt32 16) : Vector UInt32 16 :=
  #v[m[2], m[6], m[3], m[10], m[7], m[0], m[4], m[13],
     m[1], m[11], m[12], m[5], m[9], m[14], m[15], m[8]]

/-- As many rounds as `n` says, the message words permuted between them. -/
def rounds : Nat → Vector UInt32 16 → Vector UInt32 16 → Vector UInt32 16
  | 0, s, _ => s
  | n + 1, s, m => rounds n (round s m) (permute m)

/-- The input of one compression. -/
structure Node where
  chaining : Vector UInt32 8
  block : Vector UInt32 16
  counter : UInt64
  size : UInt32
  flags : UInt32

namespace Node

def compress (n : Node) : Vector UInt32 8 :=
  let h := n.chaining
  let s : Vector UInt32 16 :=
    #v[h[0], h[1], h[2], h[3], h[4], h[5], h[6], h[7],
       start[0], start[1], start[2], start[3],
       n.counter.toUInt32, (n.counter >>> 32).toUInt32, n.size, n.flags]
  let s := rounds 7 s n.block
  .ofFn fun i => s[i.val] ^^^ s[i.val + 8]

/-- The output words, when the node is the root of its tree. -/
def root (n : Node) : Vector UInt32 8 := { n with flags := n.flags ||| rootFlag }.compress

end Node

/-- The sixteen words of a block, zeros standing for what a short block lacks. -/
def blockWords (block : Bytes) : Vector UInt32 16 :=
  .ofFn fun i => Bytes.ofLittleEndian ((block.drop (4 * i.val)).take 4)

/-- The node of a chunk's last block, the earlier blocks chained into it.  `flags` marks the block
    at hand as the first one or not. -/
def blocksNode (counter : UInt64) (flags : UInt32) (chaining : Vector UInt32 8) :
    List Bytes → Node
  | [] => ⟨chaining, blockWords [], counter, 0, flags ||| chunkEnd⟩
  | [block] => ⟨chaining, blockWords block, counter, block.length.toUInt32, flags ||| chunkEnd⟩
  | block :: rest =>
    -- only the first block of a chunk keeps the flags it was given
    let node : Node := ⟨chaining, blockWords block, counter, block.length.toUInt32, flags⟩
    blocksNode counter 0 node.compress rest

def chunkNode (counter : UInt64) (chunk : Bytes) : Node :=
  blocksNode counter chunkStart start (chunk.chunks 64)

def parentNode (left right : Node) : Node :=
  ⟨start, (left.compress ++ right.compress : Vector UInt32 16), 0, 64, parent⟩

/-- The largest power of two below a number that is at least two. -/
def leftSize (n : Nat) : Nat := Nat.pow 2 (n - 1).log2

theorem leftSize_pos (n : Nat) : 0 < leftSize n := Nat.two_pow_pos _

theorem leftSize_lt {n : Nat} (h : 2 ≤ n) : leftSize n < n := by
  have := Nat.log2_self_le (n := n - 1) (by omega)
  simp only [leftSize, Nat.pow_eq]
  omega

/-- The node of a sequence of chunks, the first of which has the given number. -/
def treeNode (counter : Nat) (chunks : List Bytes) : Node :=
  if _h : chunks.length < 2 then
    chunkNode counter.toUInt64 (chunks.headD [])
  else
    -- the left subtree is full, the right one takes the rest
    let size := leftSize chunks.length
    parentNode (treeNode counter (chunks.take size)) (treeNode (counter + size) (chunks.drop size))
termination_by chunks.length
decreasing_by
  all_goals
    have := leftSize_pos chunks.length
    have := leftSize_lt (n := chunks.length) (by omega)
    simp only [List.length_take, List.length_drop]
    omega

end Blake3

def blake3 (message : Bytes) : Digest :=
  .ofWords littleEndian (Blake3.treeNode 0 (message.chunks 1024)).root

end ReplicatedKv
