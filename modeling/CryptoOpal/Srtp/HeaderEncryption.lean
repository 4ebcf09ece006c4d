import CryptoOpal.Srtp.Header

/-!
# Header Extension Encryption

`srtp_process_header_encryption`: the elements of an RTP header extension
whose ids are in a list are exored with keystream, and everything else in the
extension stays readable. The two extension forms differ in their element
header, one octet or two, and each has its own loop over the elements.

The receiver runs the same function to undo what the sender did. For that
the two runs have to walk over the same elements, although one sees
plaintext and the other ciphertext. They do: ids and lengths are never
encrypted, and the padding between elements is skipped before the next
element's body is touched. `processExtensionData_involutive` is the
result, for every cipher whose output depends on the length asked for and on
nothing else, which is how `cipherOutput` is defined.

## Main definitions

* `protectExtensionHeader`: Whether an id is to be encrypted.
* `processElement`: The body of one element.
* `oneByteLoop`, `twoByteLoop`: The loops over the elements.
* `processHeaderEncryption`: The function on a packet.

## Theorems

* `oneByteLoop_involutive`, `twoByteLoop_involutive`: A second run undoes the
  first.
* `processHeaderEncryption_append`, `processHeaderEncryption_undo`: The same
  for a packet, whatever follows its extension.
-/

namespace CryptoOpal

namespace Srtp

open Lib (Octets slice overwrite xorOctets)

variable {C : Type} [CipherType C]

/-- `srtp_protect_extension_header`. -/
def protectExtensionHeader (encXtnHdr : List Int) (id : Nat) : Bool :=
  encXtnHdr.contains (id : Int)

/-- The body of one element: ask the cipher for keystream for header and body,
    and exor the body with its part of it if the id is to be encrypted. -/
def processElement (encXtnHdr : List Int) (c : C) (hdrLen xid : Nat) (body : Octets) :
    Except SrtpErrStatus (Octets × C) :=
  match cipherOutput c (hdrLen + body.length) with
  | .error _ => .error .cipherFail
  | .ok (keystream, c) =>
    if protectExtensionHeader encXtnHdr xid then
      .ok (xorOctets body (keystream.drop hdrLen), c)
    else .ok (body, c)

theorem length_dropWhile_drop_lt (d : Octets) (n : Nat) :
    ((d.drop n).dropWhile (· == 0)).length < d.length + 1 := by
  have h := (List.dropWhile_sublist (· == 0) (l := d.drop n)).length_le
  rw [List.length_drop] at h
  omega

/-- One-byte element headers, RFC 5285, section 4.2. -/
def oneByteLoop (encXtnHdr : List Int) (c : C) : Octets → Except SrtpErrStatus Octets
  | [] => .ok []
  | h :: rest =>
    let xid := h.toNat / 16
    let xlen := h.toNat % 16 + 1
    if rest.length < xlen then .error .parseErr
    else if xid = 15 then .ok (h :: rest)
    else
      match processElement encXtnHdr c 1 xid (rest.take xlen) with
      | .error e => .error e
      | .ok (body, c) =>
        -- skip padding bytes
        let padding := (rest.drop xlen).takeWhile (· == 0)
        match oneByteLoop encXtnHdr c ((rest.drop xlen).dropWhile (· == 0)) with
        | .error e => .error e
        | .ok tail => .ok (h :: body ++ padding ++ tail)
  termination_by d => d.length
  decreasing_by exact length_dropWhile_drop_lt _ _

/-- Two-byte element headers, RFC 5285, section 4.3. A last single octet is
    left alone. -/
def twoByteLoop (encXtnHdr : List Int) (c : C) : Octets → Except SrtpErrStatus Octets
  | [] => .ok []
  | [h] => .ok [h]
  | h :: l :: rest =>
    let xid := h.toNat
    let xlen := l.toNat
    if rest.length < xlen then .error .parseErr
    else
      match processElement encXtnHdr c 2 xid (rest.take xlen) with
      | .error e => .error e
      | .ok (body, c) =>
        -- skip padding bytes
        let padding := (rest.drop xlen).takeWhile (· == 0)
        match twoByteLoop encXtnHdr c ((rest.drop xlen).dropWhile (· == 0)) with
        | .error e => .error e
        | .ok tail => .ok (h :: l :: body ++ padding ++ tail)
  termination_by d => d.length
  decreasing_by exact Nat.lt_succ_of_lt (length_dropWhile_drop_lt _ _)

/-- The extension's data, by its profile. -/
def processExtensionData (encXtnHdr : List Int) (c : C) (profile : Nat) (data : Octets) :
    Except SrtpErrStatus Octets :=
  if profile = 0xbede then oneByteLoop encXtnHdr c data
  else if profile % 0x2000 = 0x100 then twoByteLoop encXtnHdr c data
  -- unsupported extension header format
  else .error .parseErr

/-- `srtp_process_header_encryption`, on the packet that holds the extension. -/
def processHeaderEncryption (encXtnHdr : List Int) (c : C) (pkt : Octets) :
    Except SrtpErrStatus Octets :=
  let off := extnStart pkt + octetsInRtpExtnHdr
  match processExtensionData encXtnHdr c (extnProfile pkt) (slice pkt off (4 * extnLength pkt)) with
  | .error e => .error e
  | .ok data => .ok (overwrite pkt off data)

section Involution

/-- The cipher's output has the length asked for. -/
def OutputsLength (C : Type) [CipherType C] : Prop :=
  ∀ (c c' : C) (n : Nat) (keystream : Octets),
    cipherOutput c n = .ok (keystream, c') → keystream.length = n

/-- What a run over extension data leaves the same, and that a second run
    undoes it. -/
structure Undone (f : Octets → Except SrtpErrStatus Octets) (d d' : Octets) : Prop where
  undo : f d' = .ok d
  length : d'.length = d.length
  head : d'.head? = d.head?

theorem processElement_involutive (hC : OutputsLength C) {encXtnHdr : List Int} {c c' : C}
    {hdrLen xid : Nat} {body body' : Octets}
    (h : processElement encXtnHdr c hdrLen xid body = .ok (body', c')) :
    body'.length = body.length ∧
      processElement encXtnHdr c hdrLen xid body' = .ok (body, c') := by
  rw [processElement] at h
  cases hout : cipherOutput c (hdrLen + body.length) with
  | error e =>
      simp only [hout, reduceCtorEq] at h
  | ok r =>
      have hlen := hC c r.2 _ r.1 hout
      simp only [hout] at h
      by_cases hid : protectExtensionHeader encXtnHdr xid
      · rw [if_pos hid, Except.ok.injEq, Prod.mk.injEq] at h
        have hlen' : body'.length = body.length := by
          rw [← h.1, Lib.length_xorOctets, List.length_drop]
          omega
        refine ⟨hlen', ?_⟩
        rw [processElement, hlen', hout]
        simp only [if_pos hid]
        rw [← h.1, Lib.xorOctets_cancel _ _ (by rw [List.length_drop]; omega), h.2]
      · rw [if_neg hid, Except.ok.injEq, Prod.mk.injEq] at h
        refine ⟨by rw [h.1], ?_⟩
        rw [processElement, ← h.1, hout]
        simp only [if_neg hid]
        rw [h.2]

/-- After the first run, the octets that follow an element's header still
    split into its body, the same padding, and the rest. -/
theorem split_after_body {rest body tail : Octets} {xlen : Nat} (hrest : xlen ≤ rest.length)
    (hbody : body.length = (rest.take xlen).length)
    (htail : tail.head? = ((rest.drop xlen).dropWhile (· == 0)).head?) :
    (body ++ (rest.drop xlen).takeWhile (· == 0) ++ tail).take xlen = body ∧
      ((body ++ (rest.drop xlen).takeWhile (· == 0) ++ tail).drop xlen).takeWhile (· == 0) =
        (rest.drop xlen).takeWhile (· == 0) ∧
      ((body ++ (rest.drop xlen).takeWhile (· == 0) ++ tail).drop xlen).dropWhile (· == 0) =
        tail := by
  have hxlen : xlen = body.length := by
    rw [hbody, List.length_take]
    omega
  have hpad : ∀ a ∈ (rest.drop xlen).takeWhile (· == 0), (a == (0 : UInt8)) = true :=
    fun a ha => List.all_eq_true.mp (List.all_takeWhile (p := (· == (0 : UInt8)))) a ha
  -- The octet after the padding is not a zero, in the old rest and so in the new.
  have hstop := List.head?_dropWhile_not (· == (0 : UInt8)) (rest.drop xlen)
  rw [← htail] at hstop
  have hcut : tail.takeWhile (· == 0) = [] ∧ tail.dropWhile (· == 0) = tail := by
    cases tail with
    | nil => exact ⟨rfl, rfl⟩
    | cons t ts =>
        simp only [List.head?_cons] at hstop
        have hz : ¬ (t == (0 : UInt8)) = true := by rw [hstop]; decide
        exact ⟨List.takeWhile_cons_of_neg hz, List.dropWhile_cons_of_neg hz⟩
  have hdrop : (body ++ (rest.drop xlen).takeWhile (· == 0) ++ tail).drop xlen =
      (rest.drop xlen).takeWhile (· == 0) ++ tail := by
    rw [List.append_assoc]
    conv_lhs => rw [hxlen]
    rw [List.drop_left, ← hxlen]
  refine ⟨?_, ?_, ?_⟩
  · rw [List.append_assoc]
    conv_lhs => rw [hxlen]
    exact List.take_left
  · rw [hdrop, List.takeWhile_append_of_pos hpad, hcut.1, List.append_nil]
  · rw [hdrop, List.dropWhile_append_of_pos hpad, hcut.2]

theorem length_after_body {rest body tail : Octets} {xlen : Nat}
    (hbody : body.length = (rest.take xlen).length)
    (htail : tail.length = ((rest.drop xlen).dropWhile (· == 0)).length) :
    (body ++ (rest.drop xlen).takeWhile (· == 0) ++ tail).length = rest.length := by
  have hsplit := congrArg List.length
    (List.takeWhile_append_dropWhile (p := (· == (0 : UInt8))) (l := rest.drop xlen))
  have hfirst := congrArg List.length (List.take_append_drop xlen rest)
  rw [List.length_append] at hsplit hfirst
  rw [List.length_append, List.length_append, hbody, htail]
  omega

/-- Putting the pieces of the original back together. -/
theorem join_after_body (rest : Octets) (xlen : Nat) :
    rest.take xlen ++ (rest.drop xlen).takeWhile (· == 0) ++
      (rest.drop xlen).dropWhile (· == 0) = rest := by
  rw [List.append_assoc, List.takeWhile_append_dropWhile, List.take_append_drop]

/-- One round of the one-byte loop. -/
theorem oneByteLoop_round {encXtnHdr : List Int} {c : C} {hd : UInt8} {rest tail : Octets}
    (c' : C) (xlen : Nat) (body : Octets) (hxlen : xlen = hd.toNat % 16 + 1) (hlen : ¬ rest.length < xlen)
    (hxid : ¬ hd.toNat / 16 = 15)
    (helem : processElement encXtnHdr c 1 (hd.toNat / 16) (rest.take xlen) = .ok (body, c'))
    (htail : oneByteLoop encXtnHdr c' ((rest.drop xlen).dropWhile (· == 0)) = .ok tail) :
    oneByteLoop encXtnHdr c (hd :: rest) =
      .ok (hd :: (body ++ (rest.drop xlen).takeWhile (· == 0) ++ tail)) := by
  subst hxlen
  rw [oneByteLoop, if_neg hlen, if_neg hxid]
  simp only [helem, htail, List.cons_append]

/-- One round of the two-byte loop. -/
theorem twoByteLoop_round {encXtnHdr : List Int} {c : C} {hd l : UInt8} {rest tail : Octets}
    (c' : C) (xlen : Nat) (body : Octets) (hxlen : xlen = l.toNat) (hlen : ¬ rest.length < xlen)
    (helem : processElement encXtnHdr c 2 hd.toNat (rest.take xlen) = .ok (body, c'))
    (htail : twoByteLoop encXtnHdr c' ((rest.drop xlen).dropWhile (· == 0)) = .ok tail) :
    twoByteLoop encXtnHdr c (hd :: l :: rest) =
      .ok (hd :: l :: (body ++ (rest.drop xlen).takeWhile (· == 0) ++ tail)) := by
  subst hxlen
  rw [twoByteLoop, if_neg hlen]
  simp only [helem, htail, List.cons_append]

theorem oneByteLoop_involutive (hC : OutputsLength C) (encXtnHdr : List Int) (c : C)
    (d d' : Octets) (h : oneByteLoop encXtnHdr c d = .ok d') :
    Undone (oneByteLoop encXtnHdr c) d d' := by
  fun_induction oneByteLoop encXtnHdr c d generalizing d' with
  | case1 c =>
      rw [Except.ok.injEq] at h
      rw [← h]
      exact ⟨by rw [oneByteLoop], rfl, rfl⟩
  | case3 c hd rest xid xlen hlen hxid =>
      rw [Except.ok.injEq] at h
      rw [← h]
      exact ⟨by rw [oneByteLoop, if_neg hlen, if_pos hxid], rfl, rfl⟩
  | case6 c hd rest xid xlen hlen hxid body c' helem padding tail htail ih =>
      rw [Except.ok.injEq] at h
      have hback := processElement_involutive hC helem
      have hrec := ih tail htail
      have hsplit := split_after_body (by omega) hback.1 hrec.head
      have hlength := length_after_body hback.1 hrec.length
      rw [← h, List.cons_append, List.cons_append]
      refine ⟨?_, by rw [List.length_cons, hlength, List.length_cons], rfl⟩
      rw [oneByteLoop_round c' xlen (rest.take xlen) rfl
        (by rw [hlength]; exact hlen) hxid (by rw [hsplit.1]; exact hback.2)
        (by rw [hsplit.2.2]; exact hrec.undo), hsplit.2.1, join_after_body]
  | case2 | case4 | case5 => simp only [reduceCtorEq] at h

theorem twoByteLoop_involutive (hC : OutputsLength C) (encXtnHdr : List Int) (c : C)
    (d d' : Octets) (h : twoByteLoop encXtnHdr c d = .ok d') :
    Undone (twoByteLoop encXtnHdr c) d d' := by
  fun_induction twoByteLoop encXtnHdr c d generalizing d' with
  | case1 c =>
      rw [Except.ok.injEq] at h
      rw [← h]
      exact ⟨by rw [twoByteLoop], rfl, rfl⟩
  | case2 c hd =>
      rw [Except.ok.injEq] at h
      rw [← h]
      exact ⟨by rw [twoByteLoop], rfl, rfl⟩
  | case6 c hd l rest xid xlen hlen body c' helem padding tail htail ih =>
      rw [Except.ok.injEq] at h
      have hback := processElement_involutive hC helem
      have hrec := ih tail htail
      have hsplit := split_after_body (by omega) hback.1 hrec.head
      have hlength := length_after_body hback.1 hrec.length
      rw [← h, List.cons_append, List.cons_append, List.cons_append, List.cons_append]
      refine ⟨?_, by rw [List.length_cons, List.length_cons, hlength, List.length_cons,
        List.length_cons], rfl⟩
      rw [twoByteLoop_round c' xlen (rest.take xlen) rfl
        (by rw [hlength]; exact hlen) (by rw [hsplit.1]; exact hback.2)
        (by rw [hsplit.2.2]; exact hrec.undo), hsplit.2.1, join_after_body]
  | case3 | case4 | case5 => simp only [reduceCtorEq] at h

theorem processExtensionData_involutive (hC : OutputsLength C) {encXtnHdr : List Int} {c : C}
    {profile : Nat} {d d' : Octets} (h : processExtensionData encXtnHdr c profile d = .ok d') :
    Undone (processExtensionData encXtnHdr c profile) d d' := by
  rw [processExtensionData] at h
  by_cases hone : profile = 0xbede
  · rw [if_pos hone] at h
    have hund := oneByteLoop_involutive hC encXtnHdr c d d' h
    exact ⟨by rw [processExtensionData, if_pos hone, hund.undo], hund.length, hund.head⟩
  rw [if_neg hone] at h
  by_cases htwo : profile % 0x2000 = 0x100
  · rw [if_pos htwo] at h
    have hund := twoByteLoop_involutive hC encXtnHdr c d d' h
    exact ⟨by rw [processExtensionData, if_neg hone, if_pos htwo, hund.undo], hund.length,
      hund.head⟩
  · rw [if_neg htwo] at h
    exact absurd h (by simp only [reduceCtorEq, not_false_eq_true])

end Involution

section Heads

variable {encXtnHdr : List Int} {c : C} {h h' : Octets}

/-- The extension data of a packet that ends with its extension. -/
theorem extension_eq (hhead : encStart h = h.length) (hx : hdrX h = true) :
    extnStart h + octetsInRtpExtnHdr + 4 * extnLength h = h.length := by
  have h4 : octetsInRtpExtnHdr = 4 := rfl
  rw [encStart, if_pos hx] at hhead
  omega

/-- What follows the extension is not looked at. -/
theorem processHeaderEncryption_append (hC : OutputsLength C) (t : Octets)
    (hhead : encStart h = h.length) (hx : hdrX h = true) :
    processHeaderEncryption encXtnHdr c (h ++ t) =
      (processHeaderEncryption encXtnHdr c h).map (fun d => d ++ t) := by
  have hsame := sameHeader_append t hhead
  have hend := extension_eq hhead hx
  have hslice : slice (h ++ t) (extnStart h + octetsInRtpExtnHdr) (4 * extnLength h) =
      slice h (extnStart h + octetsInRtpExtnHdr) (4 * extnLength h) :=
    (slice_congr (k := h.length) (by rw [List.take_length, List.take_left]) (by omega)).symm
  simp only [processHeaderEncryption, hsame.extnStart_eq, hsame.profile hx, hsame.length hx, hslice]
  cases hdata : processExtensionData encXtnHdr c (extnProfile h)
      (slice h (extnStart h + octetsInRtpExtnHdr) (4 * extnLength h)) with
  | error e => rfl
  | ok data =>
      have hlen : data.length = 4 * extnLength h := by
        rw [(processExtensionData_involutive hC hdata).length, Lib.length_slice]
        omega
      simp only [Except.map, overwrite, hlen, hend, Except.ok.injEq]
      rw [List.take_append_of_le_length (by omega), List.drop_left, List.drop_length,
        List.append_nil]

/-- On a packet that ends with its extension, a second run undoes the first,
    and the header stays the same. -/
theorem processHeaderEncryption_undo (hC : OutputsLength C) (hhead : encStart h = h.length)
    (hx : hdrX h = true) (hrun : processHeaderEncryption encXtnHdr c h = .ok h') :
    SameHeader h h' ∧ h'.length = h.length ∧ processHeaderEncryption encXtnHdr c h' = .ok h := by
  have hend := extension_eq hhead hx
  unfold processHeaderEncryption at hrun
  cases hdata : processExtensionData encXtnHdr c (extnProfile h)
      (slice h (extnStart h + octetsInRtpExtnHdr) (4 * extnLength h)) with
  | error e => simp only [hdata, reduceCtorEq] at hrun
  | ok data =>
      have hundone := processExtensionData_involutive hC hdata
      have hlen : data.length = 4 * extnLength h := by
        rw [hundone.length, Lib.length_slice]
        omega
      simp only [hdata, Except.ok.injEq] at hrun
      have hsame : SameHeader h h' := by
        refine sameHeader_of_take ?_
        rw [← hrun, Lib.take_overwrite h data _ (by omega)]
        rw [headerLen, if_pos hx]
      have hback : slice h' (extnStart h + octetsInRtpExtnHdr) (4 * extnLength h) = data := by
        rw [← hrun, ← hlen]
        exact Lib.slice_overwrite h data (by omega)
      refine ⟨hsame, by rw [← hrun, Lib.length_overwrite _ _ _ (by omega)], ?_⟩
      rw [processHeaderEncryption, hsame.extnStart_eq, hsame.profile hx, hsame.length hx, hback,
        hundone.undo]
      simp only [Except.ok.injEq]
      rw [← hrun]
      exact Lib.overwrite_back h data (by omega) (by omega)

end Heads

end Srtp

end CryptoOpal
