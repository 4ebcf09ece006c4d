import CryptoOpal.Srtp.Crypto
import Mathlib.Data.List.Nodup

/-!
# Integer Counter Mode

`srtp_aes_icm_encrypt` exors data with keystream, which it makes a block at a time by
encrypting a counter. What is left of a block at the end of a call is kept for the next
call. The block cipher is a parameter here.

The state between two calls is a position in one keystream (`AtPosition`): the blocks so
far are those of the counter and its successors, and the buffer holds the rest of the
last one. A call goes from a position to the position behind its data, whichever of its
three paths it takes, so only the data as a whole matters.

The counter has 16 bits. The check at the start of a call compares the number of octets,
not of blocks, with what is left of it, and so a call may be refused although its blocks
are there. One call on the whole data is refused earlier than calls on its parts.

## Main definitions

* `Counter`, `IcmCtx`: The state.
* `IcmCtx.setIv`, `IcmCtx.advance`, `IcmCtx.encrypt`: The operations.
* `IcmCtx.calls`: Calls one after another.
* `AtPosition`: The state after so many octets.

## Theorems

* `encrypt_spec`: A call goes on from its position.
* `calls_spec`: So do calls one after another.
* `encrypt_chunks`: The outputs do not depend on how the data is split.
-/

namespace CryptoOpal

namespace Srtp

open Lib (Octets xorOctets)

/-- The counter, a `v128_t` whose last two octets are counted. -/
structure Counter where
  upper : Octets
  v14 : UInt8
  v15 : UInt8
  deriving DecidableEq

namespace Counter

/-- The sixteen octets. -/
def octets (counter : Counter) : Octets := counter.upper ++ [counter.v14, counter.v15]

/-- `htons(counter.v16[7])`. -/
def word (counter : Counter) : Nat := counter.v14.toNat * 256 + counter.v15.toNat

/-- Clock the counter forward. -/
def next (counter : Counter) : Counter :=
  if counter.v15 + 1 = 0 then
    { counter with v15 := counter.v15 + 1, v14 := counter.v14 + 1 }
  else { counter with v15 := counter.v15 + 1 }

/-- The counter `k` blocks later. -/
def after (counter : Counter) : Nat → Counter
  | 0 => counter
  | k + 1 => (counter.after k).next

end Counter

/-- `srtp_aes_icm_ctx_t`, and the counter blocks that were encrypted since the IV was set,
which the code does not keep. -/
structure IcmCtx where
  counter : Counter
  keystreamBuffer : Octets
  bytesInBuffer : Nat
  used : List Octets
  deriving DecidableEq

/-- What a call returns, and what it leaves in the buffer. -/
structure IcmResult where
  status : SrtpErrStatus
  output : Octets
  ctx : IcmCtx
  deriving DecidableEq

namespace IcmCtx

variable (aes : Octets → Octets) (c : IcmCtx)

/-- `srtp_aes_icm_set_iv`, with the exor of offset and nonce. -/
def setIv (counter : Counter) : IcmCtx :=
  { c with counter := counter, bytesInBuffer := 0, used := [] }

/-- `srtp_aes_icm_advance`. -/
def advance : IcmCtx where
  counter := c.counter.next
  keystreamBuffer := aes c.counter.octets
  bytesInBuffer := 16
  used := c.used ++ [c.counter.octets]

/-- The loop over entire blocks. -/
def encryptBlocks : Nat → Octets → IcmCtx → Octets × IcmCtx
  | 0, _, c => ([], c)
  | k + 1, buf, c =>
    let rest := encryptBlocks k (buf.drop 16) (c.advance aes)
    (xorOctets (buf.take 16) (c.advance aes).keystreamBuffer ++ rest.1, rest.2)

/-- The tail end of the data. -/
def encryptTail (buf : Octets) (c : IcmCtx) : Octets × IcmCtx :=
  if buf.length ≠ 0 then
    (xorOctets buf (c.advance aes).keystreamBuffer,
      { c.advance aes with bytesInBuffer := 16 - buf.length })
  else ([], { c with bytesInBuffer := 0 })

/-- `srtp_aes_icm_encrypt`. The sum in the check is an `unsigned int`. -/
def encrypt (buf : Octets) : IcmResult :=
  if 0xffff < (buf.length + c.counter.word) % 2 ^ 32 then ⟨.terminus, buf, c⟩
  else if buf.length ≤ c.bytesInBuffer then
    ⟨.ok, xorOctets buf (c.keystreamBuffer.drop (16 - c.bytesInBuffer)),
      { c with bytesInBuffer := c.bytesInBuffer - buf.length }⟩
  else
    -- encrypt bytes until the remaining data is 16-byte aligned
    let rest := buf.drop c.bytesInBuffer
    let blocks := encryptBlocks aes (rest.length / 16) rest { c with bytesInBuffer := 0 }
    let tail := encryptTail aes (rest.drop (16 * (rest.length / 16))) blocks.2
    ⟨.ok, xorOctets (buf.take c.bytesInBuffer) (c.keystreamBuffer.drop (16 - c.bytesInBuffer)) ++
      blocks.1 ++ tail.1, tail.2⟩

/-- Calls one after another, as long as none reports the terminus: the outputs. -/
def calls : IcmCtx → List Octets → Option (Octets × IcmCtx)
  | c, [] => some ([], c)
  | c, buf :: bufs =>
    if (c.encrypt aes buf).status = .ok then
      (calls (c.encrypt aes buf).ctx bufs).map fun rest =>
        ((c.encrypt aes buf).output ++ rest.1, rest.2)
    else none

end IcmCtx

section Keystream

variable (aes : Octets → Octets) (counter : Counter)

/-- An octet of the keystream from a counter on. -/
def keystreamAt (i : Nat) : UInt8 := (aes (counter.after (i / 16)).octets).getD (i % 16) 0

/-- A part of the keystream from a counter on. -/
def keystream (pos len : Nat) : Octets := (List.range' pos len).map (keystreamAt aes counter)

variable {aes counter}

@[simp] theorem length_keystream (pos len : Nat) : (keystream aes counter pos len).length = len := by
  rw [keystream, List.length_map, List.length_range']

theorem keystream_append (pos a b : Nat) :
    keystream aes counter pos (a + b) =
      keystream aes counter pos a ++ keystream aes counter (pos + a) b := by
  rw [keystream, keystream, keystream, ← List.map_append, List.range'_append_1]

/-- A part of one block. -/
theorem keystream_block (haes : ∀ x, (aes x).length = 16) {q j n : Nat} (h : j + n ≤ 16) :
    keystream aes counter (16 * q + j) n = ((aes (counter.after q).octets).drop j).take n := by
  apply List.ext_getElem
  · rw [length_keystream, List.length_take, List.length_drop, haes]
    omega
  · intro i hi _
    rw [length_keystream] at hi
    simp only [keystream, List.getElem_map, List.getElem_range', List.getElem_take,
      List.getElem_drop, keystreamAt]
    rw [show (16 * q + j + 1 * i) / 16 = q by omega, show (16 * q + j + 1 * i) % 16 = j + i by omega,
      List.getD_eq_getElem?_getD, List.getElem?_eq_getElem (by rw [haes]; omega), Option.getD_some]

theorem xorOctets_append {a b ka kb : Octets} (h : a.length = ka.length) :
    xorOctets (a ++ b) (ka ++ kb) = xorOctets a ka ++ xorOctets b kb :=
  List.zipWith_append h

/-- Exoring takes no more keystream than there is data. -/
theorem xorOctets_take (a k : Octets) : xorOctets a (k.take a.length) = xorOctets a k := by
  induction a generalizing k with
  | nil => cases k <;> rfl
  | cons x a ih =>
      cases k with
      | nil => rfl
      | cons y k =>
          have hrest := ih k
          simp only [xorOctets] at hrest
          simp only [xorOctets, List.length_cons, List.take_succ_cons, List.zipWith_cons_cons, hrest]

end Keystream

section Position

variable {aes : Octets → Octets} {counter : Counter}

/-- The state at a block boundary of the keystream. -/
structure AtBlock (counter : Counter) (q : Nat) (c : IcmCtx) : Prop where
  counter_eq : c.counter = counter.after q
  used : c.used = (List.range q).map fun k => (counter.after k).octets

/-- The state after so many octets of the keystream. -/
structure AtPosition (aes : Octets → Octets) (counter : Counter) (n : Nat) (c : IcmCtx) : Prop
    extends AtBlock counter ((n + 15) / 16) c where
  left : c.bytesInBuffer = (16 - n % 16) % 16
  buffer : n % 16 ≠ 0 → c.keystreamBuffer = aes (counter.after (n / 16)).octets

theorem AtBlock.advance {c : IcmCtx} {q : Nat} (h : AtBlock counter q c) :
    AtBlock counter (q + 1) (c.advance aes) ∧
      (c.advance aes).keystreamBuffer = aes (counter.after q).octets := by
  refine ⟨⟨?_, ?_⟩, ?_⟩
  · rw [IcmCtx.advance, h.counter_eq]
    rfl
  · rw [IcmCtx.advance, h.used, h.counter_eq, List.range_succ, List.map_append]
    rfl
  · rw [IcmCtx.advance, h.counter_eq]

theorem setIv_atPosition (c : IcmCtx) : AtPosition aes counter 0 (c.setIv counter) where
  counter_eq := rfl
  used := rfl
  left := rfl
  buffer := fun h => absurd rfl h

/-- Entire blocks. -/
theorem encryptBlocks_spec (haes : ∀ x, (aes x).length = 16) (k : Nat) {q : Nat} (buf : Octets)
    {c : IcmCtx} (h : AtBlock counter q c) (hlen : 16 * k ≤ buf.length) :
    (IcmCtx.encryptBlocks aes k buf c).1 =
        xorOctets (buf.take (16 * k)) (keystream aes counter (16 * q) (16 * k)) ∧
      AtBlock counter (q + k) (IcmCtx.encryptBlocks aes k buf c).2 := by
  induction k generalizing q buf c with
  | zero => exact ⟨rfl, h⟩
  | succ k ih =>
      obtain ⟨hnext, hblock⟩ := @AtBlock.advance aes _ _ _ h
      -- The first block is that of the counter, and the others follow it.
      obtain ⟨hout, hend⟩ := ih (buf.drop 16) hnext (by rw [List.length_drop]; omega)
      rw [show q + 1 + k = q + (k + 1) by omega] at hend
      refine ⟨?_, hend⟩
      have hfirst := @keystream_block _ counter haes q 0 16 (by omega)
      rw [Nat.add_zero, List.drop_zero, List.take_of_length_le (by rw [haes])] at hfirst
      rw [IcmCtx.encryptBlocks]
      show xorOctets (buf.take 16) _ ++ _ = _
      rw [hout, hblock, ← hfirst, show 16 * (k + 1) = 16 + 16 * k by omega, List.take_add,
        keystream_append, show 16 * q + 16 = 16 * (q + 1) by omega,
        xorOctets_append (by rw [List.length_take, length_keystream]; omega)]

/-- The tail end. -/
theorem encryptTail_spec (haes : ∀ x, (aes x).length = 16) {q : Nat} (buf : Octets) {c : IcmCtx}
    (h : AtBlock counter q c) (hlen : buf.length < 16) :
    (IcmCtx.encryptTail aes buf c).1 =
        xorOctets buf (keystream aes counter (16 * q) buf.length) ∧
      AtPosition aes counter (16 * q + buf.length) (IcmCtx.encryptTail aes buf c).2 := by
  rw [IcmCtx.encryptTail]
  by_cases hempty : buf.length ≠ 0
  · obtain ⟨hnext, hblock⟩ := @AtBlock.advance aes _ _ _ h
    have hpart := @keystream_block _ counter haes q 0 buf.length
      (by omega)
    rw [Nat.add_zero, List.drop_zero] at hpart
    rw [if_pos hempty, hpart, xorOctets_take, hblock]
    refine ⟨rfl, ⟨?_, ?_⟩, ?_, fun _ => ?_⟩
    · rw [show (16 * q + buf.length + 15) / 16 = q + 1 by omega]
      exact hnext.counter_eq
    · rw [show (16 * q + buf.length + 15) / 16 = q + 1 by omega]
      exact hnext.used
    · show 16 - buf.length = _
      omega
    · rw [show (16 * q + buf.length) / 16 = q by omega]
      exact hblock
  -- Without a tail the counter is not advanced.
  · have hnil : buf = [] := List.length_eq_zero_iff.mp (not_not.mp hempty)
    rw [if_neg hempty, hnil]
    refine ⟨rfl, ⟨?_, ?_⟩, ?_, fun hne => ?_⟩
    · rw [show (16 * q + ([] : Octets).length + 15) / 16 = q by rw [List.length_nil]; omega]
      exact h.counter_eq
    · rw [show (16 * q + ([] : Octets).length + 15) / 16 = q by rw [List.length_nil]; omega]
      exact h.used
    · show 0 = _
      rw [List.length_nil]
      omega
    · exact absurd (by rw [List.length_nil]; omega) hne

/-- A call goes from its position to the one behind its data. -/
theorem encrypt_spec (haes : ∀ x, (aes x).length = 16) {n : Nat} {c : IcmCtx}
    (h : AtPosition aes counter n c) (buf : Octets) (hok : (c.encrypt aes buf).status = .ok) :
    (c.encrypt aes buf).output = xorOctets buf (keystream aes counter n buf.length) ∧
      AtPosition aes counter (n + buf.length) (c.encrypt aes buf).ctx := by
  have hleft := h.left
  -- A call that succeeds has passed the check.
  have hcheck : ¬ 0xffff < (buf.length + c.counter.word) % 2 ^ 32 := by
    intro hterm
    rw [IcmCtx.encrypt, if_pos hterm] at hok
    cases hok
  -- What is left in the buffer is the keystream from the position on.
  have hrest : ∀ m ≤ c.bytesInBuffer, keystream aes counter n m =
      (c.keystreamBuffer.drop (16 - c.bytesInBuffer)).take m := by
    intro m hm
    rcases Nat.eq_zero_or_pos m with rfl | hpos
    · rw [List.take_zero]
      rfl
    · rw [h.buffer (by omega), ← keystream_block haes (by omega),
        show 16 * (n / 16) + (16 - c.bytesInBuffer) = n by omega]
  rw [IcmCtx.encrypt, if_neg hcheck]
  by_cases hsmall : buf.length ≤ c.bytesInBuffer
  · -- The odd case of small data.
    rw [if_pos hsmall, hrest _ hsmall, xorOctets_take]
    refine ⟨rfl, ⟨?_, ?_⟩, ?_, fun hne => ?_⟩
    · rw [show (n + buf.length + 15) / 16 = (n + 15) / 16 by omega]
      exact h.counter_eq
    · rw [show (n + buf.length + 15) / 16 = (n + 15) / 16 by omega]
      exact h.used
    · show c.bytesInBuffer - buf.length = _
      omega
    · rw [show (n + buf.length) / 16 = n / 16 by omega]
      exact h.buffer (by omega)
  · rw [if_neg hsmall]
    obtain ⟨q, hq⟩ : ∃ q, q = (n + 15) / 16 := ⟨_, rfl⟩
    obtain ⟨rest, hbuf, hcut⟩ : ∃ rest, buf.drop c.bytesInBuffer = rest ∧
        buf.length = c.bytesInBuffer + rest.length := ⟨_, rfl, by rw [List.length_drop]; omega⟩
    have hstart : AtBlock counter q { c with bytesInBuffer := 0 } := by
      rw [hq]
      exact ⟨h.counter_eq, h.used⟩
    -- Head, entire blocks and tail, each from the position where the one before it ended.
    obtain ⟨hblocks, hmid⟩ := encryptBlocks_spec haes (rest.length / 16) rest hstart
      (by omega)
    have htailLen : (rest.drop (16 * (rest.length / 16))).length = rest.length % 16 := by
      rw [List.length_drop]
      omega
    obtain ⟨htail, hend⟩ := encryptTail_spec haes (rest.drop (16 * (rest.length / 16))) hmid
      (by rw [htailLen]; omega)
    simp only [hbuf]
    refine ⟨?_, ?_⟩
    · -- The three pieces of the data are followed by one another in the keystream.
      have htake : (buf.take c.bytesInBuffer).length = c.bytesInBuffer := by
        rw [List.length_take]
        omega
      have hhead : xorOctets (buf.take c.bytesInBuffer)
          (c.keystreamBuffer.drop (16 - c.bytesInBuffer)) =
          xorOctets (buf.take c.bytesInBuffer) (keystream aes counter n c.bytesInBuffer) := by
        rw [hrest _ (Nat.le_refl _)]
        conv_rhs => rw [← htake]
        rw [htake, ← xorOctets_take, htake]
      have hbody : xorOctets rest (keystream aes counter (16 * q) rest.length) =
          xorOctets (rest.take (16 * (rest.length / 16)))
              (keystream aes counter (16 * q) (16 * (rest.length / 16))) ++
            xorOctets (rest.drop (16 * (rest.length / 16)))
              (keystream aes counter (16 * (q + rest.length / 16)) (rest.length % 16)) := by
        have hlen : rest.length = 16 * (rest.length / 16) + rest.length % 16 := by omega
        rw [← xorOctets_append (by rw [List.length_take, length_keystream]; omega),
          List.take_append_drop, Nat.mul_add, ← keystream_append, ← hlen]
      have hpos : n + c.bytesInBuffer = 16 * q := by omega
      rw [hblocks, htail, htailLen, hcut, keystream_append, hpos, hhead, List.append_assoc, ← hbody]
      conv_rhs => rw [← List.take_append_drop c.bytesInBuffer buf, hbuf]
      rw [xorOctets_append (by rw [htake, length_keystream])]
    · rw [htailLen] at hend
      rw [show n + buf.length = 16 * (q + rest.length / 16) + rest.length % 16 by omega]
      exact hend

/-- Calls one after another go through the keystream without a gap. -/
theorem calls_spec (haes : ∀ x, (aes x).length = 16) {n : Nat} {c : IcmCtx}
    (h : AtPosition aes counter n c) {bufs : List Octets} {out : Octets} {c' : IcmCtx}
    (hcalls : c.calls aes bufs = some (out, c')) :
    out = xorOctets bufs.flatten (keystream aes counter n bufs.flatten.length) ∧
      AtPosition aes counter (n + bufs.flatten.length) c' := by
  induction bufs generalizing n c out with
  | nil =>
      rw [IcmCtx.calls, Option.some.injEq, Prod.mk.injEq] at hcalls
      rw [← hcalls.1, ← hcalls.2]
      exact ⟨rfl, h⟩
  | cons buf bufs ih =>
      rw [IcmCtx.calls] at hcalls
      split at hcalls
      · rename_i hok
        obtain ⟨hout, hnext⟩ := encrypt_spec haes h buf hok
        obtain ⟨⟨out', c''⟩, hrest, heq⟩ := Option.map_eq_some_iff.mp hcalls
        simp only [Prod.mk.injEq] at heq
        rw [heq.2] at hrest
        obtain ⟨hout', hend⟩ := ih hnext hrest
        rw [← heq.1, List.flatten_cons, List.length_append, keystream_append,
          xorOctets_append (by rw [length_keystream]), hout, ← Nat.add_assoc]
        exact ⟨by rw [← hout'], hend⟩
      · cases hcalls

end Position

section Counters

variable {aes : Octets → Octets} {counter : Counter}

theorem Counter.word_lt (counter : Counter) : counter.word < 0x10000 := by
  have h14 := counter.v14.toNat_lt
  have h15 := counter.v15.toNat_lt
  rw [Counter.word]
  omega

/-- Two octets count to 65535. -/
theorem Counter.word_next (counter : Counter) :
    counter.next.word = (counter.word + 1) % 0x10000 := by
  have h14 := counter.v14.toNat_lt
  have h15 := counter.v15.toNat_lt
  have hcarry : counter.v15 + 1 = 0 ↔ (counter.v15.toNat + 1) % 256 = 0 := by
    rw [← UInt8.toNat_inj, UInt8.toNat_add]
    rfl
  rw [Counter.next]
  split
  · rename_i hzero
    rw [hcarry] at hzero
    simp only [Counter.word, UInt8.toNat_add, UInt8.toNat_one]
    omega
  · rename_i hzero
    rw [hcarry] at hzero
    simp only [Counter.word, UInt8.toNat_add, UInt8.toNat_one]
    omega

theorem Counter.word_after (counter : Counter) (k : Nat) :
    (counter.after k).word = (counter.word + k) % 0x10000 := by
  induction k with
  | zero =>
      rw [Nat.add_zero, Nat.mod_eq_of_lt counter.word_lt]
      rfl
  | succ k ih =>
      rw [Counter.after, Counter.word_next, ih]
      omega

theorem Counter.word_eq_of_octets_eq {a b : Counter} (h : a.octets = b.octets) :
    a.word = b.word := by
  have hlast := List.append_inj_right' h rfl
  rw [List.cons.injEq, List.cons.injEq] at hlast
  rw [Counter.word, Counter.word, hlast.1, hlast.2.1]

/-- As long as the counter has not come round, no block of it was used twice. -/
theorem AtPosition.used_nodup {n : Nat} {c : IcmCtx} (h : AtPosition aes counter n c)
    (hroom : counter.word + (n + 15) / 16 ≤ 0xffff) : c.used.Nodup := by
  rw [h.used]
  refine List.Nodup.map_on ?_ List.nodup_range
  intro i hi j hj heq
  rw [List.mem_range] at hi hj
  have hword := Counter.word_eq_of_octets_eq heq
  rw [Counter.word_after, Counter.word_after] at hword
  omega

/-- The check keeps the counter from coming round. -/
theorem encrypt_room {n : Nat} {c : IcmCtx} (h : AtPosition aes counter n c)
    (hroom : counter.word + (n + 15) / 16 ≤ 0xffff) {buf : Octets}
    (hlen : buf.length ≤ 2 ^ 32 - 2 ^ 16) (hok : (c.encrypt aes buf).status = .ok) :
    counter.word + (n + buf.length + 15) / 16 ≤ 0xffff := by
  have hcheck : ¬ 0xffff < (buf.length + c.counter.word) % 2 ^ 32 := by
    intro hterm
    rw [IcmCtx.encrypt, if_pos hterm] at hok
    cases hok
  rw [h.counter_eq, Counter.word_after] at hcheck
  omega

theorem calls_room (haes : ∀ x, (aes x).length = 16) {n : Nat} {c : IcmCtx}
    (h : AtPosition aes counter n c) (hroom : counter.word + (n + 15) / 16 ≤ 0xffff)
    {bufs : List Octets} (hlen : ∀ buf ∈ bufs, buf.length ≤ 2 ^ 32 - 2 ^ 16) {out : Octets}
    {c' : IcmCtx} (hcalls : c.calls aes bufs = some (out, c')) :
    counter.word + (n + bufs.flatten.length + 15) / 16 ≤ 0xffff := by
  induction bufs generalizing n c out with
  | nil => exact hroom
  | cons buf bufs ih =>
      rw [IcmCtx.calls] at hcalls
      split at hcalls
      · rename_i hok
        obtain ⟨⟨out', c''⟩, hrest, heq⟩ := Option.map_eq_some_iff.mp hcalls
        simp only [Prod.mk.injEq] at heq
        rw [heq.2] at hrest
        have hnext := ih (encrypt_spec haes h buf hok).2
          (encrypt_room h hroom (hlen buf List.mem_cons_self) hok)
          (fun b hb => hlen b (List.mem_cons_of_mem _ hb)) hrest
        rw [List.flatten_cons, List.length_append, ← Nat.add_assoc]
        exact hnext
      · cases hcalls

end Counters

section Chunks

/-- The data in calls none of which reports the terminus, against one call: either that one
reports the terminus, or it gives the same output. No block of the counter is used for two
blocks of the keystream. -/
theorem encrypt_chunks {aes : Octets → Octets} (haes : ∀ x, (aes x).length = 16) (c : IcmCtx)
    (counter : Counter) {bufs : List Octets} (hlen : ∀ buf ∈ bufs, buf.length ≤ 2 ^ 32 - 2 ^ 16)
    {out : Octets} {c' : IcmCtx} (h : (c.setIv counter).calls aes bufs = some (out, c')) :
    (((c.setIv counter).encrypt aes bufs.flatten).status = .ok →
      ((c.setIv counter).encrypt aes bufs.flatten).output = out) ∧
    out = xorOctets bufs.flatten (keystream aes counter 0 bufs.flatten.length) ∧
    c'.used.Nodup := by
  have hstart : AtPosition aes counter 0 (c.setIv counter) := setIv_atPosition c
  have hfirst : counter.word + (0 + 15) / 16 ≤ 0xffff := by
    have hword := counter.word_lt
    omega
  obtain ⟨hout, hend⟩ := calls_spec haes hstart h
  refine ⟨fun hok => ?_, hout, hend.used_nodup (calls_room haes hstart hfirst hlen h)⟩
  rw [(encrypt_spec haes hstart _ hok).1, hout]

/-- Five octets in two calls, with the same block. -/
theorem encrypt_chunks_two :
    ((IcmCtx.setIv ⟨⟨[], 0, 0⟩, [], 0, []⟩ ⟨List.replicate 14 7, 0, 0⟩).encrypt
        (fun x => (x.map (· + 1) ++ List.replicate 16 0).take 16)
        [[1, 2, 3], [4, 5]].flatten).output = [9, 10, 11, 12, 13] :=
  have hcalls : (IcmCtx.setIv ⟨⟨[], 0, 0⟩, [], 0, []⟩ ⟨List.replicate 14 7, 0, 0⟩).calls
      (fun x => (x.map (· + 1) ++ List.replicate 16 0).take 16) [[1, 2, 3], [4, 5]] =
      some ([9, 10, 11, 12, 13], ⟨⟨List.replicate 14 7, 0, 1⟩,
        List.replicate 14 8 ++ [1, 1], 11, [List.replicate 14 7 ++ [0, 0]]⟩) := by decide +kernel
  (encrypt_chunks
    (fun x => by rw [List.length_take, List.length_append, List.length_replicate]; omega)
    ⟨⟨[], 0, 0⟩, [], 0, []⟩ ⟨List.replicate 14 7, 0, 0⟩ (by decide +kernel) hcalls).1
    (by decide +kernel)

/-- The claim about one call: it takes what calls on the parts of the data take. -/
def ChunkingIrrelevant (aes : Octets → Octets) (c : IcmCtx) (bufs : List Octets) : Prop :=
  ∀ out c', c.calls aes bufs = some (out, c') →
    (c.encrypt aes bufs.flatten).status = .ok ∧ (c.encrypt aes bufs.flatten).output = out

/-- The last sixteen counter values: two calls of eight octets succeed, one of sixteen does
not. -/
theorem not_chunkingIrrelevant_half :
    ¬ ChunkingIrrelevant (fun _ => List.replicate 16 0)
      (IcmCtx.setIv ⟨⟨[], 0, 0⟩, [], 0, []⟩ ⟨List.replicate 14 0, 0xff, 0xf0⟩)
      [List.replicate 8 1, List.replicate 8 2] := by
  intro h
  have hcalls : IcmCtx.calls (fun _ => List.replicate 16 0)
      (IcmCtx.setIv ⟨⟨[], 0, 0⟩, [], 0, []⟩ ⟨List.replicate 14 0, 0xff, 0xf0⟩)
      [List.replicate 8 1, List.replicate 8 2] =
      some (List.replicate 8 1 ++ List.replicate 8 2, ⟨⟨List.replicate 14 0, 0xff, 0xf1⟩,
        List.replicate 16 0, 0, [List.replicate 14 0 ++ [0xff, 0xf0]]⟩) := by decide +kernel
  exact absurd (h _ _ hcalls).1 (by decide +kernel)

end Chunks

end Srtp

end CryptoOpal
