/-!
# BLAKE3

The canonical name of an invoice is the BLAKE3 digest of its name, in hexadecimal. The input is
cut into chunks of 1024 bytes, each chunk into blocks of 64; the blocks of a chunk are chained
through the compression function, and the chunks are the leaves of a binary tree. Joining
neighbours level by level, the odd one out going up unchanged, gives the tree whose left subtrees
are as large as a power of two allows.

The model of the digest behind `canonical_name` in section 4.1 of `SPEC_FULL.md`.

Main definitions: `compress`, `Node`, `joinAll`, `hexDigest`.
-/

namespace Bindle.Blake3

/-- A chaining value: eight words. -/
abbrev Chain := Vector UInt32 8

/-- A message block, or the state of the compression function: sixteen words. -/
abbrev Block := Vector UInt32 16

/-- The initial chaining value. -/
def initialChain : Chain :=
  #v[0x6A09E667, 0xBB67AE85, 0x3C6EF372, 0xA54FF53A, 0x510E527F, 0x9B05688C, 0x1F83D9AB,
    0x5BE0CD19]

/-- A word turned right by `n` bits, for `0 < n < 32`. -/
def rotateRight (x n : UInt32) : UInt32 :=
  (x >>> n) ||| (x <<< (32 - n))

/-! ## Compression -/

/-- Mixes two message words into one column or diagonal of the state. -/
def mix (v : Block) (a b c d : Fin 16) (x y : UInt32) : Block :=
  let a₁ := v[a] + v[b] + x
  let d₁ := rotateRight (v[d] ^^^ a₁) 16
  let c₁ := v[c] + d₁
  let b₁ := rotateRight (v[b] ^^^ c₁) 12
  let a₂ := a₁ + b₁ + y
  let d₂ := rotateRight (d₁ ^^^ a₂) 8
  let c₂ := c₁ + d₂
  let b₂ := rotateRight (b₁ ^^^ c₂) 7
  (((v.set a a₂).set b b₂).set c c₂).set d d₂

/-- One round: the four columns, then the four diagonals. -/
def round (v m : Block) : Block :=
  let v := mix v 0 4 8 12 m[0] m[1]
  let v := mix v 1 5 9 13 m[2] m[3]
  let v := mix v 2 6 10 14 m[4] m[5]
  let v := mix v 3 7 11 15 m[6] m[7]
  let v := mix v 0 5 10 15 m[8] m[9]
  let v := mix v 1 6 11 12 m[10] m[11]
  let v := mix v 2 7 8 13 m[12] m[13]
  mix v 3 4 9 14 m[14] m[15]

/-- The order of the message words in the next round. -/
def permute (m : Block) : Block :=
  #v[m[2], m[6], m[3], m[10], m[7], m[0], m[4], m[13], m[1], m[11], m[12], m[5], m[9], m[14],
    m[15], m[8]]

/-- The given number of rounds, the message words permuted after each. -/
def rounds : Nat → Block → Block → Block
  | 0, v, _ => v
  | n + 1, v, m => rounds n (round v m) (permute m)

/-- What one call of the compression function takes. -/
structure Node where
  chain : Chain
  block : Block
  counter : UInt64
  length : UInt32
  flags : UInt32

/-- The compression function with further flags, cut to eight words. -/
def Node.compress (n : Node) (moreFlags : UInt32) : Chain :=
  let h := n.chain
  let iv := initialChain
  let start : Block :=
    #v[h[0], h[1], h[2], h[3], h[4], h[5], h[6], h[7], iv[0], iv[1], iv[2], iv[3],
      n.counter.toUInt32, (n.counter >>> 32).toUInt32, n.length, n.flags ||| moreFlags]
  let v := rounds 7 start n.block
  #v[v[0] ^^^ v[8], v[1] ^^^ v[9], v[2] ^^^ v[10], v[3] ^^^ v[11], v[4] ^^^ v[12], v[5] ^^^ v[13],
    v[6] ^^^ v[14], v[7] ^^^ v[15]]

/-! ## Chunks -/

/-- A list cut into pieces of `n + 1` elements; the last piece may be shorter. -/
def pieces {α : Type} (n : Nat) : List α → List (List α)
  | [] => []
  | x :: rest => (x :: rest.take n) :: pieces n (rest.drop n)
  termination_by xs => xs.length
  decreasing_by
    rw [List.length_drop, List.length_cons]
    omega

/-- The little-endian word at a byte offset; bytes past the end count as zero. -/
def wordAt (bytes : Array UInt8) (i : Nat) : UInt32 :=
  let byte (j : Nat) : UInt32 := (bytes.getD (i + j) 0).toUInt32
  byte 0 ||| (byte 1 <<< 8) ||| (byte 2 <<< 16) ||| (byte 3 <<< 24)

/-- The block that holds up to 64 bytes. -/
def blockOf (bytes : List UInt8) : Block :=
  let array := bytes.toArray
  Vector.ofFn fun i => wordAt array (4 * i.val)

/-- Chains the blocks of a chunk; the last one is left uncompressed, for it may be the root. -/
def chainBlocks (counter : UInt64) (chain : Chain) (flags : UInt32) :
    List UInt8 → List (List UInt8) → Node
  | last, [] => ⟨chain, blockOf last, counter, UInt32.ofNat last.length, flags ||| 2⟩
  | piece, next :: more =>
    let node : Node := ⟨chain, blockOf piece, counter, 64, flags⟩
    chainBlocks counter (node.compress 0) 0 next more

/-- The node of a chunk with its position in the input. -/
def chunkNode (position : Nat) (bytes : List UInt8) : Node :=
  match pieces 63 bytes with
  | [] => chainBlocks (UInt64.ofNat position) initialChain 1 [] []
  | first :: more => chainBlocks (UInt64.ofNat position) initialChain 1 first more

/-- The nodes of all chunks; the empty input is one empty chunk. -/
def chunkNodes (bytes : List UInt8) : List Node :=
  match pieces 1023 bytes with
  | [] => [chunkNode 0 []]
  | chunks => chunks.mapIdx chunkNode

/-! ## The tree -/

/-- The parent of two neighbours. -/
def parent (left right : Node) : Node :=
  ⟨initialChain, left.compress 0 ++ right.compress 0, 0, 64, 4⟩

/-- Joins neighbours once; an odd one out goes up unchanged. -/
def joinPairs : List Node → List Node
  | left :: right :: rest => parent left right :: joinPairs rest
  | rest => rest

theorem length_joinPairs_le (ns : List Node) : (joinPairs ns).length ≤ ns.length := by
  fun_induction joinPairs ns with
  | case1 l r rest ih => simp only [List.length_cons]; omega
  | case2 => exact Nat.le_refl _

/-- Joins level by level until one node is left: the root. -/
def joinAll : Node → List Node → Node
  | root, [] => root
  | left, right :: rest => joinAll (parent left right) (joinPairs rest)
  termination_by _ rest => rest.length
  decreasing_by
    have := length_joinPairs_le rest
    simp only [List.length_cons]
    omega

/-! ## Digests -/

/-- The two hexadecimal digits of a byte. -/
def hexByte (b : UInt8) : List Char :=
  [Nat.digitChar (b.toNat / 16), Nat.digitChar (b.toNat % 16)]

/-- The bytes of a word, least significant first. -/
def wordBytes (w : UInt32) : List UInt8 :=
  [w.toUInt8, (w >>> 8).toUInt8, (w >>> 16).toUInt8, (w >>> 24).toUInt8]

/-- The node that the whole input ends in. -/
def rootNode (bytes : List UInt8) : Node :=
  match chunkNodes bytes with
  | [] => chunkNode 0 []
  | first :: rest => joinAll first rest

/-- The 32 bytes of the digest. -/
def digest (bytes : List UInt8) : List UInt8 :=
  ((rootNode bytes).compress 8).toList.flatMap wordBytes

/-- The digest of a text's UTF-8 bytes, as 64 lower-case hexadecimal digits. -/
def hexDigest (text : String) : String :=
  String.ofList ((digest text.toUTF8.toList).flatMap hexByte)

end Bindle.Blake3
