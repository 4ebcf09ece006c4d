import CryptoOpal.Lib.Bits
import CryptoOpal.Srtp.HeaderEncryption
import Mathlib.Data.List.Pairwise

/-!
# Header Extension Encryption in Place

`srtp_process_header_encryption` works on the packet in memory, and what it has changed
when it finds an element that does not fit stays changed. Here it is a walk over a memory
that goes from one element to the next, and says which octets it touches and which
elements it visits.

The two extension forms differ in the length of an element's header and in how it is
read, `ElementForm`. Whatever the form, a header is read from its own octets, and these are
never written. So a second walk, over the memory that the first has left, comes to the
same elements in the same order, and exors the same keystream into the same bodies. It
ends where the first one ended, also if that was at an element that does not fit.

## Main definitions

* `ElementForm`, `oneByteForm`, `twoByteForm`: How an element's header is read.
* `walk`: The loop over the elements.
* `headerEncryptionInPlace`: The function on a packet in memory.

## Theorems

* `walk_frame`: What the walk leaves alone.
* `walk_again`: A second walk goes the same way and undoes the first.
* `headerEncryption_spec`: The function on an extension.
-/

namespace CryptoOpal

namespace Srtp

open Lib (Octets Memory)

variable {C : Type} [CipherType C]

/-- How the header of an element is read. It is read from its own octets. -/
structure ElementForm where
  hdrLen : Nat
  xid : Memory → Nat → Nat
  xlen : Memory → Nat → Nat
  /-- The id that stops the processing, if there is one. -/
  last : Option Nat
  hdrLen_pos : 0 < hdrLen
  xid_local : ∀ (m m' : Memory) (pos : Nat), (∀ a, pos ≤ a → a < pos + hdrLen → m a = m' a) →
    xid m pos = xid m' pos
  xlen_local : ∀ (m m' : Memory) (pos : Nat), (∀ a, pos ≤ a → a < pos + hdrLen → m a = m' a) →
    xlen m pos = xlen m' pos

/-- RFC 5285, section 4.2. -/
def oneByteForm : ElementForm where
  hdrLen := 1
  xid := fun m pos => (m pos).toNat / 16
  xlen := fun m pos => (m pos).toNat % 16 + 1
  last := some 15
  hdrLen_pos := Nat.one_pos
  xid_local := fun m m' pos h => by rw [h pos (Nat.le_refl pos) (Nat.lt_succ_self pos)]
  xlen_local := fun m m' pos h => by rw [h pos (Nat.le_refl pos) (Nat.lt_succ_self pos)]

/-- RFC 5285, section 4.3. -/
def twoByteForm : ElementForm where
  hdrLen := 2
  xid := fun m pos => (m pos).toNat
  xlen := fun m pos => (m (pos + 1)).toNat
  last := none
  hdrLen_pos := Nat.two_pos
  xid_local := fun m m' pos h => by rw [h pos (Nat.le_refl pos) (by omega)]
  xlen_local := fun m m' pos h => by rw [h (pos + 1) (by omega) (by omega)]

/-- An element that was visited: its header, its body, and what is behind it. -/
structure Element where
  start : Nat
  xid : Nat
  body : Nat
  stop : Nat
  deriving DecidableEq

/-- What a walk comes to. -/
structure Walked where
  status : SrtpErrStatus
  memory : Memory
  touched : List Nat
  elements : List Element

/-- Exor keystream into the octets of a body. -/
def xorBody (keystream : Octets) (hdrLen body xlen : Nat) (m : Memory) : Memory := fun a =>
  if body ≤ a ∧ a < body + xlen then m a ^^^ keystream.getD (hdrLen + (a - body)) 0 else m a

/-- Exor keystream into the octets of a body that is to be encrypted. -/
def xorIf (selected : Bool) (keystream : Octets) (hdrLen body xlen : Nat) (m : Memory) : Memory :=
  if selected then xorBody keystream hdrLen body xlen m else m

/-- The position behind padding bytes. -/
def skipPadding (m : Memory) (stop pos : Nat) : Nat :=
  if pos < stop ∧ m pos = 0 then skipPadding m stop (pos + 1) else pos
  termination_by stop - pos

theorem le_skipPadding (m : Memory) (stop pos : Nat) : pos ≤ skipPadding m stop pos := by
  fun_induction skipPadding m stop pos with
  | case1 pos h ih => omega
  | case2 pos h => exact Nat.le_refl pos

/-- The octets at which the skipping looks, up to the one that stops it. -/
def paddingRead (stop pos next : Nat) : List Nat := List.range' pos (min (next + 1) stop - pos)

/-- The loop over the elements, from `pos` on. -/
def walk (form : ElementForm) (encXtnHdr : List Int) (stop : Nat) (c : C) (m : Memory) (pos : Nat) :
    Walked :=
  if pos + form.hdrLen ≤ stop then
    let xid := form.xid m pos
    let xlen := form.xlen m pos
    let body := pos + form.hdrLen
    let header := List.range' pos form.hdrLen
    if stop < body + xlen then ⟨.parseErr, m, header, []⟩
    else if form.last = some xid then ⟨.ok, m, header, []⟩
    else
      match cipherOutput c (form.hdrLen + xlen) with
      | .error _ => ⟨.cipherFail, m, header, []⟩
      | .ok (keystream, c') =>
        let selected := protectExtensionHeader encXtnHdr xid
        let m' := xorIf selected keystream form.hdrLen body xlen m
        let next := skipPadding m' stop (body + xlen)
        let rest := walk form encXtnHdr stop c' m' next
        { status := rest.status
          memory := rest.memory
          touched := header ++ (if selected then List.range' body xlen else []) ++
            paddingRead stop (body + xlen) next ++ rest.touched
          elements := ⟨pos, xid, body, body + xlen⟩ :: rest.elements }
  else ⟨.ok, m, [], []⟩
  termination_by stop - pos
  decreasing_by
    have hnext := le_skipPadding (xorIf (protectExtensionHeader encXtnHdr (form.xid m pos))
      keystream form.hdrLen (pos + form.hdrLen) (form.xlen m pos) m) stop
      (pos + form.hdrLen + form.xlen m pos)
    have hpos := form.hdrLen_pos
    omega

/-- A 16-bit number in network byte order. -/
def short (m : Memory) (a : Nat) : Nat := (m a).toNat * 256 + (m (a + 1)).toNat

/-- The first octet of an extension's data. -/
def dataStart (xtnHdr : Nat) : Nat := xtnHdr + octetsInRtpExtnHdr

/-- `xtn_hdr_end`. -/
def dataEnd (m : Memory) (xtnHdr : Nat) : Nat := dataStart xtnHdr + short m (xtnHdr + 2) * 4

/-- `srtp_process_header_encryption`, on the extension at an address. -/
def headerEncryptionInPlace (encXtnHdr : List Int) (c : C) (m : Memory) (xtnHdr : Nat) : Walked :=
  if short m xtnHdr = 0xbede then
    walk oneByteForm encXtnHdr (dataEnd m xtnHdr) c m (dataStart xtnHdr)
  else if short m xtnHdr % 0x2000 = 0x100 then
    walk twoByteForm encXtnHdr (dataEnd m xtnHdr) c m (dataStart xtnHdr)
  -- unsupported extension header format
  else ⟨.parseErr, m, [], []⟩

section Pieces

variable {m m' : Memory} {stop pos : Nat}

/-- Where the skipping stops depends on what it goes over, and the octet that stops it. -/
theorem skipPadding_congr (h : ∀ a, pos ≤ a → a < stop → a ≤ skipPadding m stop pos → m' a = m a) :
    skipPadding m' stop pos = skipPadding m stop pos := by
  fun_induction skipPadding m stop pos with
  | case1 pos hzero ih =>
      have hnext := le_skipPadding m stop (pos + 1)
      have hsame : m' pos = m pos := h pos (Nat.le_refl pos) hzero.1 (by omega)
      rw [skipPadding, if_pos ⟨hzero.1, hsame.trans hzero.2⟩]
      exact ih fun a hlo hhi hle => h a (by omega) hhi hle
  | case2 pos hstop =>
      rw [skipPadding]
      by_cases hin : pos < stop
      · rw [h pos (Nat.le_refl pos) hin (Nat.le_refl pos), if_neg hstop]
      · rw [if_neg (fun hboth => hin hboth.1)]

theorem xorIf_outside {selected : Bool} {keystream : Octets} {hdrLen body xlen a : Nat}
    (h : a < body ∨ body + xlen ≤ a) : xorIf selected keystream hdrLen body xlen m a = m a := by
  cases selected with
  | false => rfl
  | true =>
      show xorBody keystream hdrLen body xlen m a = m a
      rw [xorBody, if_neg (by omega)]

theorem xorIf_twice (selected : Bool) (keystream : Octets) (hdrLen body xlen a : Nat)
    (h : m' a = xorIf selected keystream hdrLen body xlen m a) :
    xorIf selected keystream hdrLen body xlen m' a = m a := by
  cases selected with
  | false => exact h
  | true =>
      have hfirst : m' a = xorBody keystream hdrLen body xlen m a := h
      show xorBody keystream hdrLen body xlen m' a = m a
      rw [xorBody, hfirst, xorBody]
      by_cases hin : body ≤ a ∧ a < body + xlen
      · rw [if_pos hin, if_pos hin, Lib.xor_cancel_right]
      · rw [if_neg hin, if_neg hin]

end Pieces

section Walk

variable {form : ElementForm} {encXtnHdr : List Int} {stop : Nat}

/-- What a walk from `pos` leaves alone. -/
structure Frame (form : ElementForm) (encXtnHdr : List Int) (stop pos : Nat) (m : Memory)
    (r : Walked) : Prop where
  /-- It touches octets of the data. -/
  touched : ∀ a ∈ r.touched, pos ≤ a ∧ a < stop
  /-- The elements are behind each other. -/
  sorted : r.elements.Pairwise (fun e e' => e.stop ≤ e'.start)
  inside : ∀ e ∈ r.elements,
    pos ≤ e.start ∧ e.body = e.start + form.hdrLen ∧ e.body ≤ e.stop ∧ e.stop ≤ stop
  /-- It changes octets of the bodies of the elements to be encrypted. -/
  changed : ∀ a, r.memory a ≠ m a →
    ∃ e ∈ r.elements, protectExtensionHeader encXtnHdr e.xid = true ∧ e.body ≤ a ∧ a < e.stop

theorem Frame.nothing (m : Memory) (status : SrtpErrStatus) {touched : List Nat} {pos : Nat}
    (h : ∀ a ∈ touched, pos ≤ a ∧ a < stop) :
    Frame form encXtnHdr stop pos m ⟨status, m, touched, []⟩ where
  touched := h
  sorted := List.Pairwise.nil
  inside := fun e he => absurd he List.not_mem_nil
  changed := fun a ha => absurd rfl ha

theorem header_touched {pos : Nat} (h : pos + form.hdrLen ≤ stop) :
    ∀ a ∈ List.range' pos form.hdrLen, pos ≤ a ∧ a < stop := by
  intro a ha
  rw [List.mem_range'_1] at ha
  omega

/-- The walk stays inside the data, and changes octets of the bodies of the elements to be
encrypted only. -/
theorem walk_frame (c : C) (m : Memory) (pos : Nat) :
    Frame form encXtnHdr stop pos m (walk form encXtnHdr stop c m pos) := by
  fun_induction walk form encXtnHdr stop c m pos with
  | case1 c m pos hin => exact Frame.nothing m _ (header_touched hin)
  | case2 c m pos hin => exact Frame.nothing m _ (header_touched hin)
  | case3 c m pos hin => exact Frame.nothing m _ (header_touched hin)
  | case4 c m pos hin xid xlen body header hlong hlast keystream c' hout selected m' next rest ih =>
      have hnext : body + xlen ≤ next := le_skipPadding m' stop (body + xlen)
      have hbody : body = pos + form.hdrLen := rfl
      have hpos := form.hdrLen_pos
      refine ⟨?_, ?_, ?_, ?_⟩
      · intro a ha
        simp only [List.mem_append] at ha
        rcases ha with ((hheader | hselected) | hpadding) | hrest
        · exact header_touched hin a hheader
        · by_cases hsel : selected = true
          · rw [if_pos hsel, List.mem_range'_1] at hselected
            omega
          · rw [if_neg hsel] at hselected
            exact absurd hselected List.not_mem_nil
        · rw [paddingRead, List.mem_range'_1] at hpadding
          omega
        · have hafter := ih.touched a hrest
          omega
      · refine List.pairwise_cons.mpr ⟨fun e he => ?_, ih.sorted⟩
        have hafter := ih.inside e he
        show body + xlen ≤ e.start
        omega
      · intro e he
        rcases List.mem_cons.mp he with rfl | hrest
        · exact ⟨Nat.le_refl pos, rfl, Nat.le_add_right body xlen,
            by show body + xlen ≤ stop; omega⟩
        · have hafter := ih.inside e hrest
          omega
      · intro a ha
        by_cases hrest : rest.memory a = m' a
        · -- It was changed in the body of this element.
          have hchanged : m' a ≠ m a := fun heq => ha (hrest.trans heq)
          refine ⟨_, List.mem_cons_self, ?_, ?_⟩
          · by_contra hsel
            have hfalse : selected = false := Bool.eq_false_iff.mpr hsel
            exact hchanged (by show xorIf selected _ _ _ _ m a = m a; rw [hfalse]; rfl)
          · show body ≤ a ∧ a < body + xlen
            by_contra hout
            exact hchanged (xorIf_outside (by show a < body ∨ body + xlen ≤ a; omega))
        · obtain ⟨e, he, hspec⟩ := ih.changed a hrest
          exact ⟨e, List.mem_cons_of_mem _ he, hspec⟩
  | case5 c m pos hin => exact Frame.nothing m _ (fun a ha => absurd ha List.not_mem_nil)

/-- The header of the first element is left alone. -/
theorem Frame.eq_of_header {pos a : Nat} {m : Memory} {r : Walked}
    (h : Frame form encXtnHdr stop pos m r) (ha : a < pos + form.hdrLen) : r.memory a = m a := by
  by_contra hne
  obtain ⟨e, he, -, hlo, -⟩ := h.changed a hne
  have hinside := h.inside e he
  omega

/-- What a walk over the memory that another one has left comes to. -/
def Walked.undone (r : Walked) (stop pos : Nat) (m m2 : Memory) : Walked :=
  { r with memory := fun a => if pos ≤ a ∧ a < stop then m a else m2 a }

theorem undone_nothing (status : SrtpErrStatus) (touched : List Nat) {pos : Nat} {m m2 : Memory}
    (h : ∀ a, pos ≤ a → a < stop → m2 a = m a) :
    Walked.undone ⟨status, m, touched, []⟩ stop pos m m2 = ⟨status, m2, touched, []⟩ := by
  have hsame : (fun a => if pos ≤ a ∧ a < stop then m a else m2 a) = m2 := by
    funext a
    by_cases hin : pos ≤ a ∧ a < stop
    · rw [if_pos hin, h a hin.1 hin.2]
    · rw [if_neg hin]
  rw [Walked.undone, hsame]

/-- A second walk goes the same way as the first, and undoes it. -/
theorem walk_again (c : C) (m m2 : Memory) (pos : Nat)
    (h : ∀ a, pos ≤ a → a < stop → m2 a = (walk form encXtnHdr stop c m pos).memory a) :
    walk form encXtnHdr stop c m2 pos =
      (walk form encXtnHdr stop c m pos).undone stop pos m m2 := by
  fun_induction walk form encXtnHdr stop c m pos generalizing m2 with
  | case1 c m pos hin xlen body header hlong =>
      have hlocal : ∀ a, pos ≤ a → a < pos + form.hdrLen → m2 a = m a :=
        fun a hlo hhi => h a hlo (by omega)
      rw [undone_nothing _ _ h, walk, if_pos hin]
      simp only [form.xlen_local m2 m pos hlocal]
      rw [if_pos hlong]
  | case2 c m pos hin xid xlen body header hlong hlast =>
      have hlocal : ∀ a, pos ≤ a → a < pos + form.hdrLen → m2 a = m a :=
        fun a hlo hhi => h a hlo (by omega)
      rw [undone_nothing _ _ h, walk, if_pos hin]
      simp only [form.xlen_local m2 m pos hlocal, form.xid_local m2 m pos hlocal]
      rw [if_neg hlong, if_pos hlast]
  | case3 c m pos hin xid xlen body header hlong hlast e hout =>
      have hlocal : ∀ a, pos ≤ a → a < pos + form.hdrLen → m2 a = m a :=
        fun a hlo hhi => h a hlo (by omega)
      rw [undone_nothing _ _ h, walk, if_pos hin]
      simp only [form.xlen_local m2 m pos hlocal, form.xid_local m2 m pos hlocal]
      rw [if_neg hlong, if_neg hlast]
      simp only [xlen] at hout
      simp only [hout]
      rfl
  | case4 c m pos hin xid xlen body header hlong hlast keystream c' hout selected m' next rest ih =>
      have hnext : body + xlen ≤ next := le_skipPadding m' stop (body + xlen)
      have hbody : body = pos + form.hdrLen := rfl
      have hframe : Frame form encXtnHdr stop next m' rest := walk_frame c' m' next
      -- Up to the next header, the first walk has changed this body only.
      have hbefore : ∀ a, pos ≤ a → a < stop → a ≤ next → m2 a = m' a := by
        intro a hlo hhi hle
        have hpos := form.hdrLen_pos
        rw [h a hlo hhi]
        exact hframe.eq_of_header (by omega)
      have hlocal : ∀ a, pos ≤ a → a < pos + form.hdrLen → m2 a = m a := by
        intro a hlo hhi
        rw [hbefore a hlo (by omega) (by omega)]
        exact xorIf_outside (.inl (by omega))
      obtain ⟨m2', hm2'⟩ : ∃ m2', m2' = xorIf selected keystream form.hdrLen body xlen m2 :=
        ⟨_, rfl⟩
      have hrestored : ∀ a, body ≤ a → a < body + xlen → m2' a = m a := by
        intro a hlo hhi
        rw [hm2']
        exact xorIf_twice selected keystream form.hdrLen body xlen a
          (hbefore a (by omega) (by omega) (by omega))
      have houtside : ∀ a, a < body ∨ body + xlen ≤ a → m2' a = m2 a := by
        intro a ha
        rw [hm2']
        exact xorIf_outside ha
      have hskip : skipPadding m2' stop (body + xlen) = next := by
        refine skipPadding_congr fun a hlo hhi hle => ?_
        rw [houtside a (.inr hlo)]
        exact hbefore a (by omega) hhi hle
      have hrec := ih m2' fun a hlo hhi => by
        rw [houtside a (.inr (by omega))]
        exact h a (by omega) hhi
      have hmemory : (rest.undone stop next m' m2').memory =
          fun a => if pos ≤ a ∧ a < stop then m a else m2 a := by
        funext a
        show (if next ≤ a ∧ a < stop then m' a else m2' a) = _
        by_cases hrange : pos ≤ a ∧ a < stop
        · rw [if_pos hrange]
          by_cases hafter : next ≤ a
          · rw [if_pos ⟨hafter, hrange.2⟩]
            exact xorIf_outside (.inr (by omega))
          rw [if_neg (fun hboth => hafter hboth.1)]
          by_cases hinBody : body ≤ a ∧ a < body + xlen
          · exact hrestored a hinBody.1 hinBody.2
          · rw [houtside a (by omega), hbefore a hrange.1 hrange.2 (by omega)]
            exact xorIf_outside (by omega)
        · rw [if_neg hrange, if_neg (by omega), houtside a (by omega)]
      rw [walk, if_pos hin]
      simp only [form.xlen_local m2 m pos hlocal, form.xid_local m2 m pos hlocal]
      rw [if_neg hlong, if_neg hlast]
      simp only [xlen] at hout
      simp only [hout]
      rw [Walked.undone, ← hmemory]
      simp only [selected, xid, body, xlen] at hm2' hskip hrec
      rw [← hm2', hskip, hrec]
      rfl
  | case5 c m pos hin =>
      rw [undone_nothing _ _ h, walk, if_neg hin]

end Walk

section Extension

variable {encXtnHdr : List Int} {c : C} {m : Memory} {xtnHdr : Nat}

/-- What is left unchanged: the ids and lengths of the elements, the bodies of those that
are not to be encrypted, and what is not in an element, such as padding. -/
structure LeavesRest (encXtnHdr : List Int) (m : Memory) (r : Walked) : Prop where
  headers : ∀ e ∈ r.elements, ∀ a, e.start ≤ a → a < e.body → r.memory a = m a
  others : ∀ e ∈ r.elements, protectExtensionHeader encXtnHdr e.xid = false →
    ∀ a, e.start ≤ a → a < e.stop → r.memory a = m a
  between : ∀ a, (∀ e ∈ r.elements, a < e.start ∨ e.stop ≤ a) → r.memory a = m a

/-- Elements that are behind each other do not overlap. -/
theorem Frame.disjoint {form : ElementForm} {stop pos : Nat} {r : Walked}
    (h : Frame form encXtnHdr stop pos m r) {e e' : Element} (he : e ∈ r.elements)
    (he' : e' ∈ r.elements) {a : Nat} (ha : e.start ≤ a ∧ a < e.stop)
    (ha' : e'.start ≤ a ∧ a < e'.stop) : e = e' := by
  by_contra hne
  have hsymm : Std.Symm fun e e' : Element => e.stop ≤ e'.start ∨ e'.stop ≤ e.start :=
    ⟨fun _ _ => Or.symm⟩
  have hpair : e.stop ≤ e'.start ∨ e'.stop ≤ e.start :=
    List.Pairwise.forall (R := fun e e' : Element => e.stop ≤ e'.start ∨ e'.stop ≤ e.start)
      (h.sorted.imp Or.inl) he he' hne
  omega

theorem Frame.leavesRest {form : ElementForm} {stop pos : Nat} {r : Walked}
    (h : Frame form encXtnHdr stop pos m r) : LeavesRest encXtnHdr m r where
  headers := by
    intro e he a hlo hhi
    by_contra hne
    obtain ⟨e', he', -, hbody, hstop⟩ := h.changed a hne
    have hin := h.inside e he
    have hin' := h.inside e' he'
    obtain rfl := h.disjoint he he' (a := a) ⟨by omega, by omega⟩ ⟨by omega, by omega⟩
    omega
  others := by
    intro e he hsel a hlo hhi
    by_contra hne
    obtain ⟨e', he', hsel', hbody, hstop⟩ := h.changed a hne
    have hin' := h.inside e' he'
    obtain rfl := h.disjoint he he' (a := a) ⟨hlo, hhi⟩ ⟨by omega, hstop⟩
    rw [hsel] at hsel'
    cases hsel'
  between := by
    intro a hout
    by_contra hne
    obtain ⟨e, he, -, hbody, hstop⟩ := h.changed a hne
    have hin := h.inside e he
    rcases hout e he with hbefore | hafter <;> omega

/-- The function is a walk over the data, or nothing. -/
theorem headerEncryptionInPlace_cases (encXtnHdr : List Int) (c : C) (m : Memory) (xtnHdr : Nat) :
    (∃ form, ∀ m2, short m2 xtnHdr = short m xtnHdr →
      headerEncryptionInPlace encXtnHdr c m2 xtnHdr =
        walk form encXtnHdr (dataEnd m2 xtnHdr) c m2 (dataStart xtnHdr)) ∨
      ∀ m2, short m2 xtnHdr = short m xtnHdr →
        headerEncryptionInPlace encXtnHdr c m2 xtnHdr = ⟨.parseErr, m2, [], []⟩ := by
  by_cases hone : short m xtnHdr = 0xbede
  · refine .inl ⟨oneByteForm, fun m2 hsame => ?_⟩
    rw [headerEncryptionInPlace, if_pos (hsame.trans hone)]
  by_cases htwo : short m xtnHdr % 0x2000 = 0x100
  · refine .inl ⟨twoByteForm, fun m2 hsame => ?_⟩
    rw [headerEncryptionInPlace, hsame, if_neg hone, if_pos htwo]
  · refine .inr fun m2 hsame => ?_
    rw [headerEncryptionInPlace, hsame, if_neg hone, if_neg htwo]

/-- The encryption of a header extension. It touches octets of the extension's data only,
leaves everything but the bodies of the elements to be encrypted unchanged, and a second
run with the same keystream restores the extension. -/
theorem headerEncryption_spec (encXtnHdr : List Int) (c : C) (m : Memory) (xtnHdr : Nat) :
    (∀ a ∈ (headerEncryptionInPlace encXtnHdr c m xtnHdr).touched,
      dataStart xtnHdr ≤ a ∧ a < dataEnd m xtnHdr) ∧
    LeavesRest encXtnHdr m (headerEncryptionInPlace encXtnHdr c m xtnHdr) ∧
    (headerEncryptionInPlace encXtnHdr c
      (headerEncryptionInPlace encXtnHdr c m xtnHdr).memory xtnHdr).memory = m := by
  rcases headerEncryptionInPlace_cases encXtnHdr c m xtnHdr with ⟨form, hwalk⟩ | hnone
  · have hframe : Frame form encXtnHdr (dataEnd m xtnHdr) (dataStart xtnHdr) m
        (walk form encXtnHdr (dataEnd m xtnHdr) c m (dataStart xtnHdr)) := walk_frame c m _
    rw [hwalk m rfl]
    obtain ⟨m', hm'⟩ : ∃ m', m' =
        (walk form encXtnHdr (dataEnd m xtnHdr) c m (dataStart xtnHdr)).memory := ⟨_, rfl⟩
    refine ⟨hframe.touched, hframe.leavesRest, ?_⟩
    rw [← hm']
    -- The extension's own header is before its data.
    have hhead : ∀ a, a < dataStart xtnHdr → m' a = m a := by
      intro a ha
      rw [hm']
      exact hframe.eq_of_header (by omega)
    have hstart : dataStart xtnHdr = xtnHdr + 4 := rfl
    have hprofile : short m' xtnHdr = short m xtnHdr := by
      rw [short, short, hhead _ (by omega), hhead _ (by omega)]
    have hend : dataEnd m' xtnHdr = dataEnd m xtnHdr := by
      rw [dataEnd, dataEnd, short, short, hhead _ (by omega), hhead _ (by omega)]
    rw [hwalk m' hprofile, hend, walk_again c m m' (dataStart xtnHdr) (fun a _ _ => by rw [hm'])]
    funext a
    show (if dataStart xtnHdr ≤ a ∧ a < dataEnd m xtnHdr then m a else m' a) = m a
    by_cases hin : dataStart xtnHdr ≤ a ∧ a < dataEnd m xtnHdr
    · rw [if_pos hin]
    · rw [if_neg hin, hm']
      by_contra hne
      obtain ⟨e, he, -, hlo, hhi⟩ := hframe.changed a hne
      have hinside := hframe.inside e he
      omega
  · have hempty : Frame oneByteForm encXtnHdr 0 0 m ⟨.parseErr, m, [], []⟩ :=
      Frame.nothing m _ fun a ha => absurd ha List.not_mem_nil
    rw [hnone m rfl]
    exact ⟨fun a ha => absurd ha List.not_mem_nil, hempty.leavesRest, by rw [hnone m rfl]⟩

end Extension

end Srtp

end CryptoOpal
