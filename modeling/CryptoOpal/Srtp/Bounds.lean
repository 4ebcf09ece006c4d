import CryptoOpal.Srtp.Unprotect
import CryptoOpal.Srtp.Ideal

/-!
# Bounds of the Receive Path

When `srtp_unprotect_mki` computes a location or length outside of the packet
it was given.

Before a tag or MKI length is known, the header check bounds what is read: the
header, the CSRC list and the extension. What is counted from the end is not
checked as well. Tag and MKI length are subtracted from the packet's length
as unsigned numbers, and if the packet is shorter the difference wraps around
to a number that passes every later comparison.

So the condition is about the end of the packet only (`EndInside`). Every MKI
that the search compares must fit before the tag (`MkiFits`), and the chosen
MKI and tag must fit into the packet, unless no service needs to know where
they are. `unprotect_inside` says that this is the exact condition.

## Main definitions

* `MkiFits`: The search for an MKI stays inside the packet.
* `EndInside`: The condition.

## Theorems

* `findMki_fault_iff`, `readyAead_fault_iff`, `openPlain_fault_iff`: When one
  stage leaves the packet.
* `unprotect_inside`: When the function does.
-/

namespace CryptoOpal

namespace Srtp

open Lib (Octets slice overwrite)

variable {C A : Type}

/-- The MKI is found right before `base`, where the tag starts. The search
    wants as many octets before the MKI as the MKI has. -/
def MkiAt (pkt : Octets) (base : Nat) (keys : SessionKeys C A) : Prop :=
  keys.mkiId.length ≤ base - keys.mkiId.length ∧
    slice pkt (base - keys.mkiId.length) keys.mkiId.length = keys.mkiId

instance (pkt : Octets) (base : Nat) (keys : SessionKeys C A) : Decidable (MkiAt pkt base keys) :=
  inferInstanceAs (Decidable (_ ∧ _))

/-- Every MKI that the search comes to fits before the tag. The search ends at
    the first MKI it finds. -/
def MkiFits (pkt : Octets) (base : Nat) : List (SessionKeys C A) → Prop
  | [] => True
  | keys :: rest =>
    if keys.mkiId.length = 0 then MkiFits pkt base rest
    else keys.mkiId.length ≤ base ∧ (MkiAt pkt base keys ∨ MkiFits pkt base rest)

/-- The function goes on to locate tag and MKI: an IV can be set, and a service
    asks for them. -/
def NeedsEnd [CipherType C] (keying : Keying C A) (keys : SessionKeys C A) (pkt : Octets)
    (est : Nat) : Prop :=
  if keys.isGcm then ∃ r, setAeadIvs keys pkt est .decrypt = .ok r
  else (∃ r, setRtpIvs keys pkt est .decrypt = .ok r) ∧
    (keying.services.hasConf = true ∨ keying.services.hasAuth = true)

/-- For a packet with a valid header and a stream: every MKI it is searched for
    fits before the tag, and the MKI and tag of the keys it goes by fit into
    the packet, if they are needed. -/
def EndInside [CipherType C] [AuthType A] (s : Session C A) (pkt : Octets) (useMki : Bool) :
    Prop :=
  ∀ inc, validateRtpHeader pkt = .ok () → s.incoming pkt = .ok inc →
    (useMki = true → mkiTagLen inc.stream ≤ pkt.length →
      MkiFits pkt (pkt.length - mkiTagLen inc.stream) inc.stream.sessionKeys) ∧
    ∀ keys mkiSize, selectKeys inc.stream pkt useMki = .ok (keys, mkiSize) →
      NeedsEnd inc.stream.keying keys pkt inc.est →
      AuthType.outLen keys.rtpAuth + mkiSize ≤ pkt.length

section Stages

variable {pkt : Octets} {base tagLen mkiSize est : Nat}

theorem inside_eq_fault {start len : Nat} :
    inside pkt start len = .error .fault ↔ pkt.length < start + len := by
  rw [inside]
  split <;> simp only [reduceCtorEq, false_iff, true_iff] <;> omega

/-- A failed call ends with its status, not outside the packet. -/
theorem orStop_ne_fault {ε α : Type} (f : ε → SrtpErrStatus) (x : Except ε α) :
    ¬ orStop (fun e => .status (f e)) x = .error .fault := by
  cases x <;> simp only [orStop, reduceCtorEq, Except.error.injEq, not_false_eq_true]

/-- A length that fits is subtracted without wrapping around. -/
theorem sub32_sub32 {n : Nat} (hn : n < 2 ^ 31) (h : tagLen + mkiSize ≤ n) :
    sub32 (sub32 n tagLen) mkiSize = n - tagLen - mkiSize := by
  simp only [sub32]
  omega

/-- One that does not fit wraps around, to beyond the end of the packet. -/
theorem sub32_wraps {n : Nat} (htag : tagLen < 2 ^ 31) (hmki : mkiSize ≤ 128)
    (h : n < tagLen + mkiSize) : n < sub32 (sub32 n tagLen) mkiSize := by
  simp only [sub32]
  omega

/-- The header check bounds CSRC list and extension. -/
theorem encStart_le (h : validateRtpHeader pkt = .ok ()) : encStart pkt ≤ pkt.length := by
  by_contra hlt
  have h4 : octetsInRtpExtnHdr = 4 := rfl
  cases hext : hdrX pkt with
  | true =>
      simp only [encStart, hext, if_true] at hlt
      simp only [validateRtpHeader, hext, if_true, true_and] at h
      rw [if_pos (show pkt.length < extnStart pkt + octetsInRtpExtnHdr + 4 * extnLength pkt by
        omega), ite_self, ite_self] at h
      exact absurd h (by simp only [reduceCtorEq, not_false_eq_true])
  | false =>
      simp only [encStart, hext, Bool.false_eq_true, if_false] at hlt
      simp only [validateRtpHeader, hext, Bool.false_eq_true, if_false, false_and] at h
      rw [if_pos (show pkt.length < extnStart pkt + 0 by omega), ite_self] at h
      exact absurd h (by simp only [reduceCtorEq, not_false_eq_true])

/-- One round of the search, for an MKI that is not empty. -/
theorem findMki_cons (hn : pkt.length < 2 ^ 31) (hbase : base ≤ pkt.length)
    {keys : SessionKeys C A} (hne : keys.mkiId.length ≠ 0) (l : List (SessionKeys C A)) :
    findMki pkt base (keys :: l) =
      if base < keys.mkiId.length then .error .fault
      else if MkiAt pkt base keys then .ok (keys, keys.mkiId.length)
      else findMki pkt base l := by
  have hmki : keys.mkiId.length ≤ 128 := keys.mki_le
  rw [findMki, if_neg hne]
  by_cases hfit : base < keys.mkiId.length
  · -- The start of the MKI wraps around, and passes the length check.
    rw [sub32_of_lt hfit (by omega), if_pos (by omega), if_pos hfit,
      inside_eq_fault.mpr (by omega)]
    rfl
  rw [sub32_of_le (by omega) (by omega), if_neg hfit]
  by_cases hroom : keys.mkiId.length ≤ base - keys.mkiId.length
  · have hin : inside pkt (base - keys.mkiId.length) keys.mkiId.length = .ok () :=
      inside_eq_ok.mpr (by omega)
    rw [if_pos hroom, hin]
    simp only [bind, Except.bind, MkiAt, hroom, true_and]
  · rw [if_neg hroom, if_neg (fun h => hroom h.1)]

/-- The search leaves the packet exactly at an MKI that does not fit. -/
theorem findMki_fault_iff (hn : pkt.length < 2 ^ 31) (hbase : base ≤ pkt.length)
    (l : List (SessionKeys C A)) :
    findMki pkt base l = .error .fault ↔ ¬ MkiFits pkt base l := by
  induction l with
  | nil =>
      simp only [findMki, MkiFits, Except.error.injEq, reduceCtorEq, not_true_eq_false]
  | cons keys l ih =>
      rw [MkiFits]
      by_cases hempty : keys.mkiId.length = 0
      · rw [findMki, if_pos hempty, if_pos hempty]
        exact ih
      rw [findMki_cons hn hbase hempty, if_neg hempty]
      by_cases hfit : base < keys.mkiId.length
      · rw [if_pos hfit]
        exact iff_of_true rfl fun h => absurd h.1 (Nat.not_le.mpr hfit)
      rw [if_neg hfit]
      by_cases hfound : MkiAt pkt base keys
      · rw [if_pos hfound]
        exact iff_of_false (by simp only [reduceCtorEq, not_false_eq_true])
          fun h => h ⟨Nat.le_of_not_lt hfit, Or.inl hfound⟩
      · rw [if_neg hfound, ih]
        simp only [Nat.le_of_not_lt hfit, hfound, true_and, false_or]

theorem finishUnprotect_fault [AuthType A] {keys : SessionKeys C A} {s : Session C A} {inc : Incoming C A} {advance : Bool}
    {decrypted : Except Stop Octets} (h : ¬ decrypted = .error .fault) :
    ¬ (finishUnprotect s inc keys pkt mkiSize advance decrypted).2 = .error .fault := by
  simp only [finishUnprotect]
  split
  · simp only [Except.error.injEq, reduceCtorEq, not_false_eq_true]
  · cases hd : decrypted with
    | error stop =>
        rw [hd, Except.error.injEq] at h
        simp only [Except.error.injEq, h, not_false_eq_true]
    | ok body => simp only [reduceCtorEq, not_false_eq_true]

variable [CipherType C]

/-- The extension is where the header check has seen it. -/
theorem openXtn_ne_fault (h : encStart pkt ≤ pkt.length) (ids : List Int) (xtn : Option C)
    {present : Bool} (hpresent : present = true → hdrX pkt = true) :
    ¬ openXtn ids xtn present pkt = .error .fault := by
  have hin : inside pkt (extnStart pkt)
      (if present then octetsInRtpExtnHdr + 4 * extnLength pkt else 0) = .ok () := by
    refine inside_eq_ok.mpr ?_
    have h4 : octetsInRtpExtnHdr = 4 := rfl
    unfold encStart at h
    cases present with
    | false => exact Nat.le_trans (by simp only [Bool.false_eq_true, if_false]; omega) h
    | true =>
        rw [if_pos (hpresent rfl)] at h
        simp only [if_true]
        omega
  simp only [openXtn, hin, bind, Except.bind]
  exact orStop_ne_fault id _

theorem decryptPlain_ne_fault (h : encStart pkt ≤ pkt.length) (keying : Keying C A)
    (o : Opened C) : ¬ decryptPlain keying o pkt = .error .fault := by
  have hxtn : ¬ openXtn keying.encXtnHdr o.xtnCipher (hdrX pkt && keying.services.hasConf) pkt =
      .error .fault :=
    openXtn_ne_fault h _ _ fun hp => (Bool.and_eq_true _ _ ▸ hp).1
  simp only [decryptPlain, bind_eq_error, hxtn, false_or, not_exists, not_and]
  intro pkt' _
  cases o.portion with
  | none => simp only [reduceCtorEq, not_false_eq_true]
  | some range =>
      simp only [bind_eq_error, orStop_ne_fault, reduceCtorEq, and_false, exists_false, or_self,
        not_false_eq_true]

/-- Decryption starts after the extension, so the extension is still there. -/
theorem openAead_ne_fault {o : Opened C} {len : Nat} (h : encStart pkt ≤ pkt.length)
    (ho : o.portion = some (encStart pkt, len)) (keying : Keying C A) :
    ¬ openAead keying o pkt = .error .fault := by
  simp only [openAead, ho, bind_eq_error, orStop_ne_fault, false_or, not_exists, not_and,
    Prod.forall, not_or]
  intro cipher _
  refine ⟨orStop_ne_fault id _, fun data _ _ => ?_⟩
  have hsame : SameHeader pkt (overwrite pkt (encStart pkt) data) :=
    sameHeader_of_take (Lib.take_overwrite pkt data (headerLen_le pkt) h).symm
  refine openXtn_ne_fault ?_ _ _ (fun hx => hsame.x.trans hx)
  rw [hsame.encStart_eq]
  simp only [overwrite, List.length_append, List.length_take, List.length_drop]
  omega

variable [AuthType A] {keys : SessionKeys C A}

theorem selectKeys_fault_iff (hn : pkt.length < 2 ^ 31) (stream : Stream C A) (useMki : Bool) :
    selectKeys stream pkt useMki = .error .fault ↔
      useMki = true ∧ mkiTagLen stream ≤ pkt.length ∧
        ¬ MkiFits pkt (pkt.length - mkiTagLen stream) stream.sessionKeys := by
  cases useMki with
  | false =>
      simp only [selectKeys, Bool.false_eq_true, if_false, reduceCtorEq, false_and]
  | true =>
      simp only [selectKeys, if_true, srtpGetSessionKeys, bind_eq_error, refuseIf_eq_error,
        refuseIf_eq_ok, reduceCtorEq, and_false, false_or, exists_const, Nat.not_lt, true_and,
        findMki_fault_iff hn (Nat.sub_le _ _)]

/-- The AEAD path leaves the packet if MKI and tag do not fit into it. -/
theorem readyAead_fault_iff (hn : pkt.length < 2 ^ 31) (hstart : encStart pkt ≤ pkt.length)
    (hmki : mkiSize ≤ 128) :
    readyAead keys pkt est mkiSize = .error .fault ↔
      (∃ r, setAeadIvs keys pkt est .decrypt = .ok r) ∧
        pkt.length < AuthType.outLen keys.rtpAuth + mkiSize := by
  have htag := AuthType.outLen_lt keys.rtpAuth
  simp only [readyAead, bind_eq_error, orStop_eq_ok, refuseIf_eq_error, refuseIf_eq_ok,
    inside_eq_fault, inside_eq_ok, orStop_ne_fault, reduceCtorEq, and_false, false_or, or_false,
    exists_const, Nat.not_lt, Nat.zero_add, Prod.exists]
  refine ⟨?_, ?_⟩
  · rintro ⟨cipher, xtn, hset, hlimit, hout⟩
    refine ⟨⟨cipher, xtn, hset⟩, ?_⟩
    by_contra hfit
    have hlen := sub32_sub32 hn (Nat.le_of_not_lt hfit)
    rw [hlen] at hlimit hout
    rw [sub32_of_le (show mkiSize ≤ pkt.length by omega) (by omega),
      sub32_of_le (by omega) (by omega)] at hout
    omega
  · rintro ⟨⟨cipher, xtn, hset⟩, hshort⟩
    have hwrap := sub32_wraps htag hmki hshort
    exact ⟨cipher, xtn, hset, by omega, Or.inl hwrap⟩

/-- The encrypted portion leaves the packet if MKI and tag do not fit. -/
theorem encPortion_fault_iff (hn : pkt.length < 2 ^ 31) (hstart : encStart pkt ≤ pkt.length)
    (htag : tagLen < 2 ^ 31) (hmki : mkiSize ≤ 128) (services : SecServ) :
    encPortion services pkt tagLen mkiSize = .error .fault ↔
      services.hasConf = true ∧ pkt.length < tagLen + mkiSize := by
  unfold encPortion
  cases services.hasConf with
  | false => simp only [Bool.false_eq_true, if_false, reduceCtorEq, false_and]
  | true =>
      simp only [if_true, bind_eq_error, refuseIf_eq_error, refuseIf_eq_ok, inside_eq_fault,
        reduceCtorEq, and_false, false_or, or_false, exists_const, Nat.not_lt, true_and]
      refine ⟨?_, ?_⟩
      · rintro ⟨hlimit, hout⟩
        by_contra hfit
        rw [sub32_sub32 hn (Nat.le_of_not_lt hfit)] at hlimit hout
        omega
      · intro hshort
        have hwrap := sub32_wraps htag hmki hshort
        exact ⟨by omega, by omega⟩

/-- So does the tag check. -/
theorem checkTag_fault_iff (hn : pkt.length < 2 ^ 31) (hmki : mkiSize ≤ 128) (cipher : C) :
    checkTag keys cipher pkt est mkiSize = .error .fault ↔
      pkt.length < AuthType.outLen keys.rtpAuth + mkiSize := by
  have htag := AuthType.outLen_lt keys.rtpAuth
  by_cases hfit : AuthType.outLen keys.rtpAuth + mkiSize ≤ pkt.length
  · have hin : inside pkt (sub32 pkt.length (AuthType.outLen keys.rtpAuth))
        (AuthType.outLen keys.rtpAuth) = .ok () := by
      rw [sub32_of_le (by omega) (by omega)]
      exact inside_eq_ok.mpr (by omega)
    have hauth : inside pkt 0 (sub32 (sub32 pkt.length (AuthType.outLen keys.rtpAuth)) mkiSize) =
        .ok () := by
      rw [sub32_sub32 hn hfit]
      exact inside_eq_ok.mpr (by omega)
    -- Past the two ranges, the check ends with a status if it ends.
    refine iff_of_false ?_ (Nat.not_lt.mpr hfit)
    simp only [checkTag, hin, hauth, bind_eq_error, orStop_ne_fault, false_or, reduceCtorEq,
      exists_const, not_exists, not_and, Prod.forall]
    intro _ _ pfx cipher' _
    split
    · simp only [Except.error.injEq, reduceCtorEq, not_false_eq_true]
    · simp only [bind_eq_error, refuseIf_eq_error, reduceCtorEq, and_false, exists_false, or_self,
        not_false_eq_true]
  · refine iff_of_true ?_ (Nat.lt_of_not_le hfit)
    have hwrap := sub32_wraps htag hmki (Nat.lt_of_not_le hfit)
    by_cases hshort : pkt.length < AuthType.outLen keys.rtpAuth
    · have hin : inside pkt (sub32 pkt.length (AuthType.outLen keys.rtpAuth))
          (AuthType.outLen keys.rtpAuth) = .error .fault := by
        rw [sub32_of_lt hshort (by omega)]
        exact inside_eq_fault.mpr (by omega)
      simp only [checkTag, hin, bind, Except.bind]
    · have hin : inside pkt (sub32 pkt.length (AuthType.outLen keys.rtpAuth))
          (AuthType.outLen keys.rtpAuth) = .ok () := by
        rw [sub32_of_le (by omega) (by omega)]
        exact inside_eq_ok.mpr (by omega)
      have hauth : inside pkt 0
          (sub32 (sub32 pkt.length (AuthType.outLen keys.rtpAuth)) mkiSize) = .error .fault :=
        inside_eq_fault.mpr (by omega)
      simp only [checkTag, hin, hauth, bind, Except.bind]

/-- The counter mode path leaves the packet if a service needs MKI and tag, and
    they do not fit. -/
theorem openPlain_fault_iff (hn : pkt.length < 2 ^ 31) (hstart : encStart pkt ≤ pkt.length)
    (hmki : mkiSize ≤ 128) (keying : Keying C A) :
    openPlain keying keys pkt est mkiSize = .error .fault ↔
      (∃ r, setRtpIvs keys pkt est .decrypt = .ok r) ∧
        (keying.services.hasConf = true ∨ keying.services.hasAuth = true) ∧
        pkt.length < AuthType.outLen keys.rtpAuth + mkiSize := by
  have htag := AuthType.outLen_lt keys.rtpAuth
  have hportion := encPortion_fault_iff hn hstart htag hmki keying.services
  have hcheck : ∀ cipher : C, checkAuth keying.services keys cipher pkt est mkiSize =
      .error .fault ↔ keying.services.hasAuth = true ∧
        pkt.length < AuthType.outLen keys.rtpAuth + mkiSize := by
    intro cipher
    unfold checkAuth
    cases keying.services.hasAuth with
    | false => simp only [Bool.false_eq_true, if_false, reduceCtorEq, false_and]
    | true => simp only [if_true, checkTag_fault_iff hn hmki, true_and]
  simp only [openPlain, bind_eq_error, orStop_ne_fault, orStop_eq_ok, hportion, hcheck,
    reduceCtorEq, and_false, exists_false, or_false, false_or, Prod.exists]
  refine ⟨?_, ?_⟩
  · rintro ⟨cipher, xtn, hset, ⟨hconf, hshort⟩ | ⟨portion, -, hauth, hshort⟩⟩
    · exact ⟨⟨cipher, xtn, hset⟩, Or.inl hconf, hshort⟩
    · exact ⟨⟨cipher, xtn, hset⟩, Or.inr hauth, hshort⟩
  · rintro ⟨⟨cipher, xtn, hset⟩, hserv, hshort⟩
    refine ⟨cipher, xtn, hset, ?_⟩
    by_cases hconf : keying.services.hasConf = true
    · exact Or.inl ⟨hconf, hshort⟩
    · refine Or.inr ⟨none, ?_, hserv.resolve_left hconf, hshort⟩
      rw [encPortion, if_neg hconf]

/-- The two paths, past the search for the keys. -/
theorem path_fault_iff (hn : pkt.length < 2 ^ 31) (hstart : encStart pkt ≤ pkt.length)
    (hmki : mkiSize ≤ 128) (s : Session C A) (inc : Incoming C A) :
    (if keys.isGcm then unprotectAead s inc keys pkt mkiSize
      else unprotectPlain s inc keys pkt mkiSize).2 = .error .fault ↔
      NeedsEnd inc.stream.keying keys pkt inc.est ∧
        pkt.length < AuthType.outLen keys.rtpAuth + mkiSize := by
  unfold NeedsEnd
  cases keys.isGcm with
  | true =>
      simp only [if_true, ← readyAead_fault_iff hn hstart hmki, unprotectAead]
      cases hready : readyAead keys pkt inc.est mkiSize with
      | error stop => simp only [Except.error.injEq]
      | ok o =>
          rcases readyAead_eq_ok.mp hready with ⟨cipher, xtn, -, -, -, -, -, ho⟩
          have hportion := congrArg Opened.portion ho.symm
          simp only [finishUnprotect_fault (openAead_ne_fault hstart hportion inc.stream.keying),
            reduceCtorEq]
  | false =>
      simp only [Bool.false_eq_true, if_false, and_assoc,
        ← openPlain_fault_iff hn hstart hmki inc.stream.keying, unprotectPlain]
      cases hopen : openPlain inc.stream.keying keys pkt inc.est mkiSize with
      | error stop => simp only [Except.error.injEq]
      | ok o =>
          simp only [finishUnprotect_fault (decryptPlain_ne_fault hstart inc.stream.keying o),
            reduceCtorEq]

end Stages

/-- The function computes a location or length outside of the packet exactly
    when the end of the packet does not hold what is looked for there. -/
theorem unprotect_inside {C A : Type} [CipherType C] [AuthType A] (s : Session C A)
    (pkt : Octets) (useMki : Bool) (hlen : pkt.length < 2 ^ 31) :
    (srtpUnprotectMki s pkt useMki).2 ≠ .error .fault ↔ EndInside s pkt useMki := by
  unfold srtpUnprotectMki EndInside
  cases hvalid : validateRtpHeader pkt with
  | error e =>
      simp only [ne_eq, Except.error.injEq, reduceCtorEq, not_false_eq_true, false_implies,
        implies_true]
  | ok u =>
  have hstart := encStart_le hvalid
  cases hinc : s.incoming pkt with
  | error e =>
      simp only [ne_eq, Except.error.injEq, reduceCtorEq, not_false_eq_true, false_implies,
        implies_true]
  | ok inc =>
  simp only [Except.ok.injEq, forall_eq', forall_const]
  have hfault := selectKeys_fault_iff hlen inc.stream useMki
  cases hkeys : selectKeys inc.stream pkt useMki with
  | error stop =>
      simp only [hkeys, Except.error.injEq] at hfault
      simp only [ne_eq, Except.error.injEq, hfault, reduceCtorEq, false_implies, implies_true,
        and_true, not_and, not_not]
  | ok r =>
      rcases r with ⟨keys, mkiSize⟩
      have hmki : mkiSize ≤ 128 := mkiSize_le hkeys
      simp only [hkeys, reduceCtorEq, false_iff, not_and, not_not] at hfault
      simp only [ne_eq, path_fault_iff hlen hstart hmki, Except.ok.injEq, Prod.mk.injEq, and_imp,
        not_and, Nat.not_lt]
      refine ⟨fun h => ⟨hfault, ?_⟩, fun h => h.2 keys mkiSize rfl rfl⟩
      rintro _ _ rfl rfl hneeds
      exact h hneeds

/-- A packet with a tag and no more stays inside. -/
theorem unprotect_inside_tag :
    EndInside (sampleSession .aesIcm128) (samplePacket 0 5 [0, 0, 0, 0]) false :=
  (unprotect_inside (sampleSession .aesIcm128) (samplePacket 0 5 [0, 0, 0, 0]) false
    (by decide)).mp (by decide +kernel)

/-- Keys with a tag of four octets and an MKI of ten. -/
def longMkiKeys : SessionKeys KeystreamCipher FixedAuth :=
  { sampleKeys .aesIcm128 with mkiId := List.replicate 10 1, mki_le := by decide }

/-- A valid header alone does not keep the function inside the packet: in a
    header of twelve octets, an MKI of ten before a tag of four starts two
    octets before the packet. -/
theorem unprotect_leaves_packet :
    ¬ ∀ (s : Session KeystreamCipher FixedAuth) (pkt : Octets) (useMki : Bool),
      pkt.length < 2 ^ 31 → validateRtpHeader pkt = .ok () →
      (srtpUnprotectMki s pkt useMki).2 ≠ .error .fault := by
  intro h
  exact h (sessionOf (streamOf longMkiKeys)) (samplePacket 0 5 []) true (by decide) (by decide)
    (by decide +kernel)

end Srtp

end CryptoOpal
