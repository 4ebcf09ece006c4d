import CryptoOpal.Lib.Octets

/-!
# The Bundled SM3

`sm3_init`, `sm3_update`, `sm3_final` and `sm3_compress` of `sdt_skf_cipher.c`.

The macro `ROTATELEFT` shifts a word by `n` to the left and by `32 - n` to the right. In a
round it is used with the number of the round for `n`, which goes from 0 to 63. C says what
a shift of a 32-bit word is for amounts from 0 to 31 only, so a shift is a parameter, and
may fail (`Shifts`). A strict one fails for other amounts, and a processor may look at the
low five bits alone.

The memory is that of a little-endian processor. `int nblocks` wraps.

## Main definitions

* `Shifts`, `Shifts.strict`, `Shifts.masked`: The shifts.
* `sm3Compress`: A block.
* `Sm3Ctx`, `sm3Init`, `sm3Update`, `sm3Final`: The stream.
* `sm3Chunks`: A message in pieces.
-/

namespace CryptoOpal

namespace Sm3

open Lib (Octets overwrite)

/-- `uint32_t`. -/
abbrev Word := BitVec 32

/-- The shifts of a word, by an `int`. -/
structure Shifts (m : Type → Type) where
  left : Word → Int → m Word
  right : Word → Int → m Word

/-- What C defines. -/
def Shifts.strict : Shifts Option where
  left x n := if 0 ≤ n ∧ n < 32 then some (x <<< n.toNat) else none
  right x n := if 0 ≤ n ∧ n < 32 then some (x >>> n.toNat) else none

/-- What a processor does that takes the amount modulo 32. -/
def Shifts.masked : Shifts Id where
  left x n := x <<< (n % 32).toNat
  right x n := x >>> (n % 32).toNat

/-- The words `A` to `H`, or a digest. -/
structure Words where
  a : Word
  b : Word
  c : Word
  d : Word
  e : Word
  f : Word
  g : Word
  h : Word
  deriving DecidableEq

/-- `sm3_ctx_t`. -/
structure Sm3Ctx where
  digest : Words
  nblocks : Int
  block : Octets
  num : Nat

/-- Four octets of memory as a word. -/
def load32 (b : Octets) (off : Nat) : Word :=
  (b.getD (off + 3) 0).toBitVec ++ (b.getD (off + 2) 0).toBitVec ++
    (b.getD (off + 1) 0).toBitVec ++ (b.getD off 0).toBitVec

/-- A word as four octets of memory. -/
def store32 (x : Word) : Octets :=
  [UInt8.ofBitVec (x.extractLsb' 0 8), UInt8.ofBitVec (x.extractLsb' 8 8),
    UInt8.ofBitVec (x.extractLsb' 16 8), UInt8.ofBitVec (x.extractLsb' 24 8)]

/-- The macro `cpu_to_be32`. -/
def cpuToBe32 (v : Word) : Word :=
  v >>> 24 ||| ((v >>> 8) &&& 0xff00#32) ||| ((v <<< 8) &&& 0xff0000#32) ||| v <<< 24

def ff0 (x y z : Word) : Word := x ^^^ y ^^^ z

def ff1 (x y z : Word) : Word := (x &&& y) ||| (x &&& z) ||| (y &&& z)

def gg0 (x y z : Word) : Word := x ^^^ y ^^^ z

def gg1 (x y z : Word) : Word := (x &&& y) ||| (~~~x &&& z)

/-- An `int`. -/
def wrap (n : Int) : Int := n.bmod (2 ^ 32)

section Compress

variable {m : Type → Type} [Monad m] (sh : Shifts m)

/-- The macro `ROTATELEFT`. -/
def rotateLeft (x : Word) (n : Nat) : m Word := do
  let l ← sh.left x n
  let r ← sh.right x (32 - n)
  pure (l ||| r)

/-- The macro `P0`. -/
def p0 (x : Word) : m Word := do
  let y ← rotateLeft sh x 9
  let z ← rotateLeft sh x 17
  pure (x ^^^ y ^^^ z)

/-- The macro `P1`. -/
def p1 (x : Word) : m Word := do
  let y ← rotateLeft sh x 15
  let z ← rotateLeft sh x 23
  pure (x ^^^ y ^^^ z)

/-- `W[j]`, from the words before it. -/
def nextWord (w : List Word) (j : Nat) : m Word := do
  let y ← rotateLeft sh (w.getD (j - 3) 0) 15
  let z ← p1 sh (w.getD (j - 16) 0 ^^^ w.getD (j - 9) 0 ^^^ y)
  let u ← rotateLeft sh (w.getD (j - 13) 0) 7
  pure (z ^^^ u ^^^ w.getD (j - 6) 0)

/-- The loop over the words that are computed. -/
def extendWords : Nat → Nat → List Word → m (List Word)
  | 0, _, w => pure w
  | k + 1, j, w => do
    let x ← nextWord sh w j
    extendWords k (j + 1) (w ++ [x])

/-- The words of a block. -/
def loadWords (block : Octets) : List Word :=
  (List.range 16).map fun j => cpuToBe32 (load32 block (4 * j))

/-- The body of the two loops over the rounds, which differ in the constant and in two of
the macros. -/
def round (t : Word) (ff gg : Word → Word → Word → Word) (w w1 : List Word) (j : Nat) (r : Words) :
    m Words := do
  let a12 ← rotateLeft sh r.a 12
  let tj ← rotateLeft sh t j
  let ss1 ← rotateLeft sh (a12 + r.e + tj) 7
  let ss2 := ss1 ^^^ a12
  let tt1 := ff r.a r.b r.c + r.d + ss2 + w1.getD j 0
  let tt2 := gg r.e r.f r.g + r.h + ss1 + w.getD j 0
  let c ← rotateLeft sh r.b 9
  let g ← rotateLeft sh r.f 19
  let e ← p0 sh tt2
  pure { a := tt1, b := r.a, c := c, d := r.c, e := e, f := r.e, g := g, h := r.g }

/-- Some rounds. -/
def rounds (t : Word) (ff gg : Word → Word → Word → Word) (w w1 : List Word) :
    Nat → Nat → Words → m Words
  | 0, _, r => pure r
  | k + 1, j, r => do
    let r ← round sh t ff gg w w1 j r
    rounds t ff gg w w1 k (j + 1) r

/-- The exor at the end of a block. -/
def Words.exor (x y : Words) : Words :=
  { a := x.a ^^^ y.a, b := x.b ^^^ y.b, c := x.c ^^^ y.c, d := x.d ^^^ y.d
    e := x.e ^^^ y.e, f := x.f ^^^ y.f, g := x.g ^^^ y.g, h := x.h ^^^ y.h }

/-- `sm3_compress`. -/
def sm3Compress (digest : Words) (block : Octets) : m Words := do
  let w ← extendWords sh 52 16 (loadWords block)
  let w1 := List.zipWith (· ^^^ ·) w (w.drop 4)
  let r ← rounds sh 0x79CC4519#32 ff0 gg0 w w1 16 0 digest
  let r ← rounds sh 0x7A879D8A#32 ff1 gg1 w w1 48 16 r
  pure (digest.exor r)

/-- The digest that `sm3_init` sets. -/
def initDigest : Words :=
  { a := 0x7380166F#32, b := 0x4914B2B9#32, c := 0x172442D7#32, d := 0xDA8A0600#32
    e := 0xA96F30BC#32, f := 0x163138AA#32, g := 0xE38DEE4D#32, h := 0xB0FB0E4E#32 }

/-- `sm3_init`, which leaves the block as it is. -/
def sm3Init (block : Octets) : Sm3Ctx :=
  { digest := initDigest, nblocks := 0, block := block, num := 0 }

/-- A block is compressed and counted. -/
def compressBlock (ctx : Sm3Ctx) (block : Octets) : m Sm3Ctx := do
  let digest ← sm3Compress sh ctx.digest block
  pure { ctx with digest := digest, nblocks := wrap (ctx.nblocks + 1) }

/-- The loop of `sm3_update` over entire blocks, and what it leaves for later. -/
def updateBlocks : Nat → Sm3Ctx → Octets → m Sm3Ctx
  | 0, ctx, data => pure { ctx with num := data.length, block := overwrite ctx.block 0 data }
  | k + 1, ctx, data => do
    let ctx ← compressBlock sh ctx (data.take 64)
    updateBlocks k ctx (data.drop 64)

/-- `sm3_update`. -/
def sm3Update (ctx : Sm3Ctx) (data : Octets) : m Sm3Ctx :=
  if ctx.num ≠ 0 then
    if data.length < 64 - ctx.num then
      pure { ctx with block := overwrite ctx.block ctx.num data, num := ctx.num + data.length }
    else do
      let block := overwrite ctx.block ctx.num (data.take (64 - ctx.num))
      let ctx' ← compressBlock sh { ctx with block := block } block
      updateBlocks sh ((data.length - (64 - ctx.num)) / 64) ctx' (data.drop (64 - ctx.num))
  else updateBlocks sh (data.length / 64) ctx data

/-- The octets of a digest, each word by `cpu_to_be32`. -/
def storeDigest (d : Words) : Octets :=
  [d.a, d.b, d.c, d.d, d.e, d.f, d.g, d.h].flatMap fun x => store32 (cpuToBe32 x)

/-- The two words of the count, at the end of the last block. -/
def storeCount (ctx : Sm3Ctx) : Octets :=
  store32 (cpuToBe32 (BitVec.ofInt 32 (ctx.nblocks / 2 ^ 23))) ++
    store32 (cpuToBe32 (BitVec.ofInt 32 (ctx.nblocks * 2 ^ 9 + ctx.num * 8)))

/-- `sm3_final`. -/
def sm3Final (ctx : Sm3Ctx) : m Octets := do
  let block := overwrite ctx.block ctx.num [0x80]
  if ctx.num + 9 ≤ 64 then
    let block := overwrite block (ctx.num + 1) (List.replicate (64 - ctx.num - 9) 0)
    let digest ← sm3Compress sh ctx.digest (overwrite block 56 (storeCount ctx))
    pure (storeDigest digest)
  else
    let block := overwrite block (ctx.num + 1) (List.replicate (64 - ctx.num - 1) 0)
    let digest ← sm3Compress sh ctx.digest block
    let digest ← sm3Compress sh digest
      (overwrite (overwrite block 0 (List.replicate 56 0)) 56 (storeCount ctx))
    pure (storeDigest digest)

/-- Calls of `sm3_update`, one after another. -/
def updates : Sm3Ctx → List Octets → m Sm3Ctx
  | ctx, [] => pure ctx
  | ctx, data :: chunks => do
    let ctx ← sm3Update sh ctx data
    updates ctx chunks

/-- A message in pieces, on a context whose block holds anything. -/
def sm3Chunks (block : Octets) (chunks : List Octets) : m Octets := do
  let ctx ← updates sh (sm3Init block) chunks
  sm3Final sh ctx

end Compress

end Sm3

end CryptoOpal
