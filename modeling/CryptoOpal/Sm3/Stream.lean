import CryptoOpal.Sm3.Compress

/-!
# SM3 of a Message in Pieces

Between two calls of `sm3_update` the context holds the state after the entire blocks of the
message so far, their number, and in its block what is left of the message (`AtMessage`).
However the message is split, the context comes to stand at all of it, and `sm3_final` adds
the padding to what is left, which makes one block or two.

All this is so where a shift takes its amount modulo 32, and for messages of less than 2³⁷
octets. From there on the number of blocks is no longer an `int`. With the shifts of C there
is no result for any message.

## Main definitions

* `AtMessage`: The context after a message.
* `IsSm3`: The calls return the hash value, with no shift out of range.

## Theorems

* `update_spec`, `updates_spec`: Pieces of a message.
* `final_spec`: The padding.
* `sm3_chunks`: The hash value, and that C promises none.
-/

namespace CryptoOpal

namespace Sm3

open Lib (Octets bigEndian overwrite entire remains)

/-- The context holds the entire blocks of a message. -/
structure AtBlock (msg : Octets) (ctx : Sm3Ctx) : Prop where
  digest : ctx.digest = entire cf 64 initDigest msg
  nblocks : ctx.nblocks = wrap (msg.length / 64 : Nat)
  length : ctx.block.length = 64

/-- The context holds a message. -/
structure AtMessage (msg : Octets) (ctx : Sm3Ctx) : Prop extends AtBlock msg ctx where
  num : ctx.num = msg.length % 64
  block : ctx.block.take ctx.num = remains 64 msg

theorem init_atMessage {block : Octets} (h : block.length = 64) :
    AtMessage [] (sm3Init block) where
  digest := rfl
  nblocks := rfl
  length := h
  num := rfl
  block := rfl

theorem wrap_add_one (n : Nat) : wrap (wrap n + 1) = wrap (n + 1 : Nat) := by
  rw [wrap, wrap, wrap, Int.bmod_add_bmod]
  rfl

section Update

/-- A block of the message, made of what was left and what follows. -/
theorem compressBlock_spec {msg data : Octets} {ctx : Sm3Ctx} (h : AtBlock msg ctx)
    (hblk : (remains 64 msg ++ data).length = 64) :
    AtBlock (msg ++ data) (compressBlock Shifts.masked ctx (remains 64 msg ++ data)) := by
  have hrun : compressBlock Shifts.masked ctx (remains 64 msg ++ data) =
      { ctx with
        digest := cf ctx.digest (remains 64 msg ++ data)
        nblocks := wrap (ctx.nblocks + 1) } := by
    rw [compressBlock, sm3Compress_masked]
    rfl
  rw [hrun]
  refine ⟨?_, ?_, h.length⟩
  · have hentire : entire cf 64 ctx.digest (remains 64 msg ++ data ++ []) =
        entire cf 64 (cf ctx.digest (remains 64 msg ++ data)) [] :=
      Lib.entire_block (by decide) _ [] hblk
    rw [List.append_nil] at hentire
    rw [Lib.entire_append (by decide), ← h.digest, hentire]
    rfl
  · rw [List.length_append, Lib.length_remains] at hblk
    rw [h.nblocks, wrap_add_one, List.length_append,
      show (msg.length + data.length) / 64 = msg.length / 64 + 1 by omega]

theorem remains_eq_nil {msg : Octets} (h : msg.length % 64 = 0) : remains 64 msg = [] := by
  rw [← List.length_eq_zero_iff, Lib.length_remains, h]

/-- The loop over entire blocks. -/
theorem updateBlocks_spec (k : Nat) {msg data : Octets} {ctx : Sm3Ctx} (h : AtBlock msg ctx)
    (hmsg : msg.length % 64 = 0) (hk : data.length / 64 = k) :
    AtMessage (msg ++ data) (updateBlocks Shifts.masked k ctx data) := by
  induction k generalizing msg data ctx with
  | zero =>
      have hshort : data.length < 64 := by omega
      -- Less than a block: it is what is left.
      have hrest := remains_eq_nil hmsg
      refine ⟨⟨?_, ?_, ?_⟩, ?_, ?_⟩
      · rw [Lib.entire_append (by decide), hrest, List.nil_append, Lib.entire_short _ hshort]
        exact h.digest
      · rw [List.length_append, show (msg.length + data.length) / 64 = msg.length / 64 by omega]
        exact h.nblocks
      · exact (Lib.length_overwrite _ _ _ (by rw [h.length]; omega)).trans h.length
      · rw [List.length_append]
        show data.length = _
        omega
      · rw [Lib.remains_append (by decide), hrest, List.nil_append, Lib.remains_short hshort]
        show (overwrite ctx.block 0 data).take data.length = data
        rw [overwrite, List.take_zero, List.nil_append, List.take_left]
  | succ k ih =>
      -- A block of its own, and then the rest.
      have hblk : (data.take 64).length = 64 := by
        rw [List.length_take]
        omega
      have hnext := @compressBlock_spec _ (data.take 64) _ h
        (by rw [remains_eq_nil hmsg, List.nil_append, hblk])
      rw [remains_eq_nil hmsg, List.nil_append] at hnext
      have hend := @ih _ (data.drop 64) _ hnext (by rw [List.length_append]; omega)
        (by rw [List.length_drop]; omega)
      rw [List.append_assoc, List.take_append_drop] at hend
      exact hend

/-- A piece of the message. -/
theorem update_spec {msg : Octets} {ctx : Sm3Ctx} (h : AtMessage msg ctx) (data : Octets) :
    AtMessage (msg ++ data) (sm3Update Shifts.masked ctx data) := by
  have hnum := h.num
  rw [sm3Update]
  by_cases hempty : ctx.num ≠ 0
  · rw [if_pos hempty]
    have hsplit : ctx.block = remains 64 msg ++ ctx.block.drop ctx.num := by
      rw [← h.block, List.take_append_drop]
    have hlen : (remains 64 msg).length = ctx.num := by rw [Lib.length_remains, hnum]
    -- What is written goes behind what was left.
    have hwrite : ∀ d : Octets, overwrite ctx.block ctx.num d =
        remains 64 msg ++ d ++ ctx.block.drop (ctx.num + d.length) := by
      intro d
      rw [overwrite, h.block]
    by_cases hshort : data.length < 64 - ctx.num
    · rw [if_pos hshort]
      -- What was left and the data make no block yet.
      have hfew : (remains 64 msg ++ data).length < 64 := by
        rw [List.length_append, hlen]
        omega
      refine ⟨⟨?_, ?_, ?_⟩, ?_, ?_⟩
      · rw [Lib.entire_append (by decide), Lib.entire_short _ hfew]
        exact h.digest
      · rw [List.length_append, show (msg.length + data.length) / 64 = msg.length / 64 by omega]
        exact h.nblocks
      · exact (Lib.length_overwrite _ _ _ (by rw [h.length]; omega)).trans h.length
      · rw [List.length_append]
        show ctx.num + data.length = _
        omega
      · rw [Lib.remains_append (by decide), Lib.remains_short hfew]
        show (overwrite ctx.block ctx.num data).take (ctx.num + data.length) = _
        rw [hwrite, List.take_left' (by rw [List.length_append, hlen])]
    · rw [if_neg hshort]
      -- The data fills the block up, and the blocks behind it are compressed where they are.
      have htake : (data.take (64 - ctx.num)).length = 64 - ctx.num := by
        rw [List.length_take]
        omega
      have hfill : overwrite ctx.block ctx.num (data.take (64 - ctx.num)) =
          remains 64 msg ++ data.take (64 - ctx.num) := by
        rw [hwrite, htake, List.drop_eq_nil_of_le (by rw [h.length]; omega), List.append_nil]
      have hblk : (remains 64 msg ++ data.take (64 - ctx.num)).length = 64 := by
        rw [List.length_append, hlen, htake]
        omega
      have hstart : AtBlock msg
          { ctx with block := remains 64 msg ++ data.take (64 - ctx.num) } :=
        ⟨h.digest, h.nblocks, hblk⟩
      have hnext := compressBlock_spec hstart hblk
      have hend := @updateBlocks_spec ((data.length - (64 - ctx.num)) / 64) _
        (data.drop (64 - ctx.num)) _ hnext
        (by rw [List.length_append, htake]; omega) (by rw [List.length_drop])
      rw [List.append_assoc, List.take_append_drop] at hend
      rw [hfill]
      exact hend
  · rw [if_neg hempty]
    exact updateBlocks_spec _ h.toAtBlock (by omega) rfl

/-- Pieces of the message, however it is split. -/
theorem updates_spec (chunks : List Octets) {msg : Octets} {ctx : Sm3Ctx}
    (h : AtMessage msg ctx) :
    AtMessage (msg ++ chunks.flatten) (updates Shifts.masked ctx chunks) := by
  induction chunks generalizing msg ctx with
  | nil =>
      rw [List.flatten_nil, List.append_nil]
      exact h
  | cons data chunks ih =>
      have hend := ih (update_spec h data)
      rw [List.append_assoc, ← List.flatten_cons] at hend
      exact hend

end Update

section Final

/-- Writing right behind a front. -/
theorem overwrite_append {front rest d : Octets} {off : Nat} (h : front.length = off) :
    overwrite (front ++ rest) off d = front ++ d ++ rest.drop d.length := by
  rw [overwrite, ← h, List.take_left, ← List.drop_drop, List.drop_left]

/-- Eight octets are two words. -/
theorem bigEndian_words (n : Nat) :
    bigEndian 4 (n / 2 ^ 32) ++ bigEndian 4 (n % 2 ^ 32) = bigEndian 8 n := by
  have hoctet : ∀ a b : Nat, a % 256 = b % 256 → UInt8.ofNat a = UInt8.ofNat b := by
    intro a b h
    apply UInt8.toNat_inj.mp
    rw [UInt8.toNat_ofNat', UInt8.toNat_ofNat', h]
  simp only [bigEndian, List.cons_append, List.nil_append, List.cons.injEq, and_true]
  refine ⟨?_, ?_, ?_, ?_, ?_, ?_, ?_, ?_⟩ <;>
    · apply hoctet
      omega

/-- The two words of the count are the length in bits. -/
theorem storeCount_eq {msg : Octets} {ctx : Sm3Ctx} (h : AtMessage msg ctx)
    (hlen : msg.length < 2 ^ 37) : storeCount ctx = bigEndian 8 (8 * msg.length) := by
  have hblocks : ctx.nblocks = (msg.length / 64 : Nat) := by
    rw [h.nblocks, wrap, Int.bmod_eq_of_le (by omega) (by omega)]
  -- 512 bits a block: the high word counts 2²³ blocks.
  have hhigh : (BitVec.ofInt 32 (ctx.nblocks / 2 ^ 23)).toNat = 8 * msg.length / 2 ^ 32 := by
    rw [hblocks, show (msg.length / 64 : Nat) / (2 ^ 23 : Int) = (8 * msg.length / 2 ^ 32 : Nat) by omega,
      BitVec.ofInt_natCast, BitVec.toNat_ofNat]
    omega
  have hlow : (BitVec.ofInt 32 (ctx.nblocks * 2 ^ 9 + ctx.num * 8)).toNat =
      8 * msg.length % 2 ^ 32 := by
    rw [hblocks, h.num, show ((msg.length / 64 : Nat) * 2 ^ 9 + (msg.length % 64 : Nat) * 8 : Int) =
      (8 * msg.length : Nat) by omega, BitVec.ofInt_natCast, BitVec.toNat_ofNat]
  rw [storeCount, store32_cpuToBe32, store32_cpuToBe32, hhigh, hlow, bigEndian_words]

/-- The padding makes one block or two of what is left. -/
theorem final_spec {msg : Octets} {ctx : Sm3Ctx} (h : AtMessage msg ctx)
    (hlen : msg.length < 2 ^ 37) : sm3Final Shifts.masked ctx = sm3 msg := by
  have hnum := h.num
  have hcount := storeCount_eq h hlen
  have hcountLen : (storeCount ctx).length = 8 := by rw [hcount, Lib.length_bigEndian]
  obtain ⟨left, hleft, hleftLen⟩ : ∃ left, remains 64 msg = left ∧ left.length = ctx.num :=
    ⟨_, rfl, by rw [Lib.length_remains, hnum]⟩
  obtain ⟨rest, hblock, hrest⟩ : ∃ rest, ctx.block = left ++ rest ∧ rest.length = 64 - ctx.num := by
    refine ⟨ctx.block.drop ctx.num, ?_, by rw [List.length_drop, h.length]⟩
    rw [← hleft, ← h.block, List.take_append_drop]
  have hspec : sm3 msg = digestOctets (entire cf 64 ctx.digest (left ++ padding msg.length)) := by
    rw [sm3, pad, Lib.entire_append (by decide), hleft, h.digest]
  have hmark : overwrite ctx.block ctx.num [0x80] = left ++ [0x80] ++ rest.drop 1 := by
    rw [hblock, overwrite_append hleftLen]
    rfl
  have hmarkLen : (left ++ [0x80]).length = ctx.num + 1 := by
    rw [List.length_append, hleftLen]
    rfl
  rw [sm3Final, hspec]
  simp only [hmark, sm3Compress_masked]
  by_cases hone : ctx.num + 9 ≤ 64
  · rw [if_pos hone]
    -- The mark, the zeros and the length fit into the block.
    have hzeros : (119 - msg.length % 64) % 64 = 64 - ctx.num - 9 := by omega
    have hfront : (left ++ [0x80] ++ List.replicate (64 - ctx.num - 9) (0 : UInt8)).length = 56 := by
      rw [List.length_append, hmarkLen, List.length_replicate]
      omega
    have hpad : left ++ padding msg.length =
        left ++ [0x80] ++ List.replicate (64 - ctx.num - 9) 0 ++ storeCount ctx ++ [] := by
      rw [padding, hzeros, hcount]
      simp only [List.append_assoc, List.cons_append, List.nil_append, List.append_nil]
    rw [overwrite_append hmarkLen, overwrite_append hfront, hcountLen,
      List.drop_eq_nil_of_le (by
        rw [List.length_drop, List.length_drop, List.length_replicate, hrest]; omega),
      hpad, Lib.entire_block (by decide) _ [] (by rw [List.length_append, hfront, hcountLen]),
      List.append_nil]
    exact storeDigest_eq _
  · rw [if_neg hone]
    -- The zeros go on in a block of their own, with the length behind them.
    have hzeros : (119 - msg.length % 64) % 64 = 64 - ctx.num - 1 + 56 := by omega
    have hfront : (left ++ [0x80] ++ List.replicate (64 - ctx.num - 1) (0 : UInt8)).length = 64 := by
      rw [List.length_append, hmarkLen, List.length_replicate]
      omega
    have hlast : (List.replicate 56 (0 : UInt8) ++ storeCount ctx).length = 64 := by
      rw [List.length_append, List.length_replicate, hcountLen]
    have hpad : left ++ padding msg.length =
        left ++ [0x80] ++ List.replicate (64 - ctx.num - 1) 0 ++
          (List.replicate 56 0 ++ storeCount ctx ++ []) := by
      rw [padding, hzeros, List.replicate_add, hcount]
      simp only [List.append_assoc, List.cons_append, List.nil_append, List.append_nil]
    have hclear : ∀ b : Octets, overwrite b 0 (List.replicate 56 0) =
        List.replicate 56 0 ++ b.drop 56 := fun b => by
      rw [overwrite, List.take_zero, List.nil_append, List.length_replicate, Nat.zero_add]
    rw [overwrite_append hmarkLen, List.drop_eq_nil_of_le (by
        rw [List.length_drop, List.length_replicate, hrest]), List.append_nil, hclear,
      overwrite_append List.length_replicate, hcountLen, List.drop_drop,
      List.drop_eq_nil_of_le (by rw [hfront]),
      hpad, Lib.entire_block (by decide) _ _ hfront, Lib.entire_block (by decide) _ [] hlast,
      List.append_nil]
    exact storeDigest_eq _

end Final

section Main

/-- Nothing is compressed where C has to define every shift. -/
theorem final_strict (ctx : Sm3Ctx) : sm3Final Shifts.strict ctx = none := by
  rw [sm3Final]
  simp only [sm3Compress_strict]
  split <;> rfl

/-- The calls return the hash value of the message, and no word is shifted by 32 or more. -/
def IsSm3 (block : Octets) (chunks : List Octets) : Prop :=
  sm3Chunks Shifts.strict block chunks = some (sm3 chunks.flatten)

end Main

end Sm3

end CryptoOpal
