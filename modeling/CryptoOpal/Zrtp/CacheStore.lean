import CryptoOpal.Zrtp.CacheFile

/-!
# What a Store Leaves in the Cache File

A store of `zrtp_cache_store_to_file` leaves the file that writing everything
would leave, although it writes only the dirty entries. What carries the
argument is that the file in place has the same entries in the same places for
everything that is not dirty (`InFile`). An operation makes what it touches
dirty, puts what is new behind everything else, and asks for a new file when
it has touched the MiTM secrets in front.

## Main definitions

* `layout`: The file with everything written.
* `Numbered`, `Agrees`, `InFile`, `Kept`: The invariant.
* `Changed`: What an operation does to a list.
* `Slots`: The parts of the file a store begins with.

## Theorems

* `create_layout`: What a new cache has from a file.
* `storeToFile_file`: A store leaves everything written.
* `kept_store`: A store keeps the invariant.
* `readsBack_store`: What was stored is read back.
-/

namespace CryptoOpal

namespace Zrtp

namespace CacheFile

open Lib

/-- The file with everything written. -/
def layout (secrets : List (Block 24 × String64)) (entries : List Entry) : Octets :=
  versionStr ++ (versionVal ++ (bigEndian 4 secrets.length ++ (records secretFormat secrets ++
    (bigEndian 4 entries.length ++ records entryFormat entries))))

/-- The elements have their places in the list as numbers, and the counter comes next. -/
structure Numbered (l : List Element) (counter : UInt32) : Prop where
  counter_eq : counter = UInt32.ofNat l.length
  index_eq : ∀ (i : Nat) (e : Element), l[i]? = some e → e.index = UInt32.ofNat i

/-- What is not dirty is the same as before. -/
def Agrees {α : Type} (l : List Element) (view : Entry → α) (old : List α) : Prop :=
  ∀ (i : Nat) (e : Element), l[i]? = some e → e.isDirty = false → old[i]? = some (view e.entry)

/-- What the file has of a cache. -/
def InFile (s : Cache) : Prop :=
  match s.file with
  | none => Agrees s.mitmcacheHead Entry.secret [] ∧ Agrees s.cacheHead id []
  | some octets => ∃ secrets entries, octets = layout secrets entries ∧
      Fits secrets.length entries.length ∧
      (s.needsRewriting = true ∨
        secrets.length = s.mitmcacheHead.length ∧ entries.length ≤ s.cacheHead.length ∧
          Agrees s.mitmcacheHead Entry.secret secrets ∧ Agrees s.cacheHead id entries)

/-- The invariant. -/
structure Kept (s : Cache) : Prop where
  entries : Numbered s.cacheHead s.cacheElemsCounter
  mitms : Numbered s.mitmcacheHead s.mitmcacheElemsCounter
  inFile : InFile s

section Lists

/-- A list with its counter after an operation: an element changed, or a dirty one added. -/
inductive Changed (l : List Element) (counter : UInt32) : List Element → UInt32 → Prop
  | modified (i : Nat) (f : Entry → Entry) :
      Changed l counter (l.modify i (Element.change f)) counter
  | added (e : Element) : e.index = counter → e.isDirty = true →
      Changed l counter (l ++ [e]) (counter + 1)

variable {l l' : List Element} {counter counter' : UInt32}

/-- An element of a changed list was there with the same number, or it is dirty and new. -/
theorem Changed.element (h : Changed l counter l' counter') {i : Nat} {e : Element}
    (he : l'[i]? = some e) :
    (∃ e₀, l[i]? = some e₀ ∧ e.index = e₀.index ∧ (e.isDirty = true ∨ e = e₀)) ∨
      i = l.length ∧ e.index = counter ∧ e.isDirty = true := by
  cases h with
  | modified j f =>
      -- A place other than `j` has what it had.
      rw [List.getElem?_modify] at he
      obtain ⟨e₀, he₀, hchange⟩ := Option.map_eq_some_iff.1 he
      refine .inl ⟨e₀, he₀, ?_⟩
      split at hchange
      · exact ⟨by rw [← hchange]; rfl, .inl (by rw [← hchange]; rfl)⟩
      · exact ⟨by rw [← hchange], .inr hchange.symm⟩
  | added new hindex hdirty =>
      by_cases hi : i < l.length
      · rw [List.getElem?_append_left hi] at he
        exact .inl ⟨e, he, rfl, .inr rfl⟩
      · rw [List.getElem?_append_right (Nat.le_of_not_lt hi)] at he
        have hlast : i - l.length = 0 := by
          have hlt := (List.getElem?_eq_some_iff.1 he).1
          rw [List.length_singleton] at hlt
          omega
        rw [hlast, List.getElem?_cons_zero, Option.some.injEq] at he
        exact .inr ⟨by omega, he ▸ hindex, he ▸ hdirty⟩

theorem Changed.length_le (h : Changed l counter l' counter') : l.length ≤ l'.length := by
  cases h with
  | modified i f => rw [List.length_modify]
  | added e _ _ => rw [List.length_append]; exact Nat.le_add_right _ _

theorem Changed.numbered (h : Changed l counter l' counter') (hl : Numbered l counter) :
    Numbered l' counter' where
  counter_eq := by
    cases h with
    | modified i f => rw [List.length_modify, hl.counter_eq]
    | added e _ _ =>
        rw [List.length_append, List.length_singleton, UInt32.ofNat_add, ← hl.counter_eq]
        rfl
  index_eq := by
    intro i e he
    rcases h.element he with ⟨e₀, he₀, hindex, _⟩ | ⟨rfl, hindex, _⟩
    · rw [hindex, hl.index_eq i e₀ he₀]
    · rw [hindex, hl.counter_eq]

theorem Changed.agrees {α : Type} {view : Entry → α} {old : List α}
    (h : Changed l counter l' counter') (hl : Agrees l view old) : Agrees l' view old := by
  intro i (e : Element) he hclean
  rcases h.element he with ⟨e₀, he₀, _, hdirty | rfl⟩ | ⟨_, _, hdirty⟩
  · rw [hclean] at hdirty
    exact absurd hdirty Bool.false_ne_true
  · exact hl i e he₀ hclean
  · rw [hclean] at hdirty
    exact absurd hdirty Bool.false_ne_true

theorem changed_putElem (l : List Element) (counter : UInt32) (id : Block 24) (now : UInt32)
    (f : Entry → Entry) :
    Changed l counter (putElem l counter id now f).1 (putElem l counter id now f).2 := by
  rw [putElem]
  split
  · exact .modified _ f
  · exact .added _ rfl rfl

/-- A put adds an element when the peer has none. -/
theorem length_putElem (l : List Element) (counter : UInt32) (id : Block 24) (now : UInt32)
    (f : Entry → Entry) :
    (putElem l counter id now f).1.length =
      if (getElem l id).isNone then l.length + 1 else l.length := by
  rw [putElem]
  cases getElem l id with
  | none => exact List.length_append
  | some i => exact List.length_modify _ l i

end Lists

section Positions

theorem pos32_of_lt {pos : Nat} (h : pos < 2 ^ 32) : pos32 pos = pos := Nat.mod_eq_of_lt h

theorem pos32_lt (pos : Nat) : pos32 pos < 2 ^ 32 := Nat.mod_lt pos (Nat.two_pow_pos 32)

theorem size_secretFormat : secretFormat.size = 96 := rfl

theorem size_entryFormat : entryFormat.size = 448 := rfl

/-- Where positions fit, so do the numbers of elements. -/
theorem Fits.count_lt {mitms entries : Nat} (h : Fits mitms entries) :
    mitms < 2 ^ 32 ∧ entries < 2 ^ 32 := by
  have hmitms := h.1
  rw [mitmPos, size_secretFormat] at hmitms
  refine ⟨by omega, ?_⟩
  cases entries with
  | zero => exact Nat.two_pow_pos 32
  | succ n =>
      have hlast := h.2 n (Nat.lt_succ_self n)
      rw [entryPos, size_entryFormat] at hlast
      have hpos : 0 < mitmPos mitms + 4 := Nat.succ_pos _
      omega

theorem toNat_ofNat_of_lt {n : Nat} (h : n < 2 ^ 32) : (UInt32.ofNat n).toNat = n := by
  rw [UInt32.toNat_ofNat']
  exact Nat.mod_eq_of_lt h

/-- Flushing the dirty elements leaves all of them, when the others are there. -/
theorem flushElems_records {α : Type} {p : RecordFormat α} {view : Entry → α} {pos : Nat → Nat}
    {all : Bool} {before after : Octets} {old : List α} {l : List Element} {counter : UInt32}
    (hsize : 0 < p.size) (hl : Numbered l counter)
    (hpos : ∀ i < l.length, pos i < 2 ^ 32 ∧ pos i = before.length + i * p.size)
    (hkept : ∀ (i : Nat) (e : Element), l[i]? = some e → (all || e.isDirty) = false →
      old[i]? = some (view e.entry))
    (hle : old.length ≤ l.length) (hroom : after = [] ∨ old.length = l.length) :
    flushElems p view pos all (before ++ records p old ++ after) l =
      before ++ records p (l.map (view ∘ Element.entry)) ++ after := by
  refine (@writeRecords_records α p before after [] old (l.map fun e =>
    ⟨pos32 (pos e.index.toNat), all || e.isDirty, view e.entry⟩) ?_ ?_ (by rwa [List.length_map])
    (by rwa [List.length_map])).trans ?_
  · intro i w hw
    rw [List.getElem?_map] at hw
    obtain ⟨e, he, rfl⟩ := Option.map_eq_some_iff.1 hw
    obtain ⟨hlt, heq⟩ := hpos i (List.getElem?_eq_some_iff.1 he).1
    have hi : i < 2 ^ 32 := by
      have hmul := Nat.le_mul_of_pos_right i hsize
      omega
    show pos32 (pos e.index.toNat) = _
    rw [hl.index_eq i e he, toNat_ofNat_of_lt hi, pos32_of_lt hlt, heq, List.length_nil,
      Nat.zero_add]
  · intro i w hw hdue
    rw [List.getElem?_map] at hw
    obtain ⟨e, he, rfl⟩ := Option.map_eq_some_iff.1 hw
    exact hkept i e he hdue
  · rw [List.nil_append, List.map_map]
    rfl

end Positions

section Reading

theorem readCount_bigEndian {n : Nat} (h : n < 2 ^ 32) (rest : Octets) :
    readCount (bigEndian 4 n ++ rest) = some (n, rest) := by
  have hlen : (bigEndian 4 n).length = 4 := length_bigEndian 4 n
  have hmod : ofBigEndian (bigEndian 4 n) = n := by
    rw [ofBigEndian_bigEndian]
    exact Nat.mod_eq_of_lt h
  have htake : (bigEndian 4 n ++ rest).take 4 = bigEndian 4 n := List.take_left' hlen
  have hdrop : (bigEndian 4 n ++ rest).drop 4 = rest := List.drop_left' hlen
  rw [readCount, if_neg (by rw [List.length_append, hlen]; omega), htake, hdrop, hmod]

theorem readLists_layout {secrets : List (Block 24 × String64)} {entries : List Entry}
    (h : Fits secrets.length entries.length) :
    readLists (bigEndian 4 secrets.length ++ (records secretFormat secrets ++
      (bigEndian 4 entries.length ++ records entryFormat entries))) = some (secrets, entries) := by
  have hentries := readRecords_records entryFormat entries []
  rw [List.append_nil] at hentries
  rw [readLists, readCount_bigEndian h.count_lt.1, Option.bind_some, readRecords_records,
    Option.bind_some, readCount_bigEndian h.count_lt.2, Option.bind_some, hentries,
    Option.map_some]

/-- What a new cache has from a file. -/
theorem create_layout {localZid : Octets} {autoStore : Bool} {unread : Nat → Entry}
    {secrets : List (Block 24 × String64)} {entries : List Entry}
    (h : Fits secrets.length entries.length) :
    create localZid autoStore unread (some (layout secrets entries)) =
      some { localZid := localZid
             autoStore := autoStore
             mitmcacheHead := secrets.mapIdx fun i secret =>
               ⟨{ unread i with id := secret.1, currCache := secret.2 }, UInt32.ofNat i, false⟩
             mitmcacheElemsCounter := UInt32.ofNat secrets.length
             cacheHead := entries.mapIdx fun i entry => ⟨entry, UInt32.ofNat i, false⟩
             cacheElemsCounter := UInt32.ofNat entries.length
             needsRewriting := false
             file := some (layout secrets entries) } := by
  have hlen : versionStr.length + versionVal.length = (versionStr ++ versionVal).length :=
    List.length_append.symm
  have hlayout : layout secrets entries = (versionStr ++ versionVal) ++
      (bigEndian 4 secrets.length ++ (records secretFormat secrets ++
        (bigEndian 4 entries.length ++ records entryFormat entries))) := by
    rw [layout, List.append_assoc]
  have htake : (layout secrets entries).take (versionStr.length + versionVal.length) =
      versionStr ++ versionVal := by
    rw [hlayout, hlen, List.take_left]
  have hdrop : (layout secrets entries).drop (versionStr.length + versionVal.length) =
      bigEndian 4 secrets.length ++ (records secretFormat secrets ++
        (bigEndian 4 entries.length ++ records entryFormat entries)) := by
    rw [hlayout, hlen, List.drop_left]
  simp only [create, Cache.empty]
  rw [if_neg (fun hne => hne htake), hdrop, readLists_layout h, Option.map_some]

theorem numbered_mapIdx {α : Type} (l : List α) (view : Nat → α → Entry) :
    Numbered (l.mapIdx fun i a => ⟨view i a, UInt32.ofNat i, false⟩) (UInt32.ofNat l.length) where
  counter_eq := by rw [List.length_mapIdx]
  index_eq := by
    intro i e he
    rw [List.getElem?_mapIdx] at he
    obtain ⟨a, _, rfl⟩ := Option.map_eq_some_iff.1 he
    rfl

/-- The parts of elements that were made from a list. -/
theorem map_mapIdx_view {α : Type} (l : List α) (make : Nat → α → Entry) (view : Entry → α)
    (h : ∀ i a, view (make i a) = a) :
    (l.mapIdx fun i a => (⟨make i a, UInt32.ofNat i, false⟩ : Element)).map
      (view ∘ Element.entry) = l := by
  apply List.ext_getElem?
  intro i
  rw [List.getElem?_map, List.getElem?_mapIdx, Option.map_map]
  have hid : (view ∘ Element.entry) ∘ (fun a => (⟨make i a, UInt32.ofNat i, false⟩ : Element)) =
      id := funext fun a => h i a
  rw [hid, Option.map_id, id]

end Reading

section Store

variable {s : Cache}

/-- The parts of the file a store begins with: those of a stored file, or none. -/
structure Slots (s : Cache) (str val mitms : Octets) (secrets : List (Block 24 × String64))
    (count : Octets) (entries : List Entry) : Prop where
  sized : (str = versionStr ∧ val = versionVal ∧ mitms.length = 4 ∧ count.length = 4 ∧
      secrets.length = s.mitmcacheHead.length) ∨
    (str = [] ∧ val = [] ∧ mitms = [] ∧ count = [] ∧ secrets = [] ∧ entries = [])
  entries_le : entries.length ≤ s.cacheHead.length
  secrets_kept : ∀ (i : Nat) (e : Element), s.mitmcacheHead[i]? = some e →
    (s.needsRewriting || e.isDirty) = false → secrets[i]? = some e.entry.secret
  entries_kept : ∀ (i : Nat) (e : Element), s.cacheHead[i]? = some e →
    (s.needsRewriting || e.isDirty) = false → entries[i]? = some (id e.entry)

/-- When everything is written, nothing has to be there. -/
theorem slots_of_all (hm : ∀ (i : Nat) (e : Element), s.mitmcacheHead[i]? = some e →
      (s.needsRewriting || e.isDirty) ≠ false)
    (he : ∀ (i : Nat) (e : Element), s.cacheHead[i]? = some e →
      (s.needsRewriting || e.isDirty) ≠ false) :
    Slots s [] [] [] [] [] [] where
  sized := .inr ⟨rfl, rfl, rfl, rfl, rfl, rfl⟩
  entries_le := Nat.zero_le _
  secrets_kept := fun i e hi hclean => absurd hclean (hm i e hi)
  entries_kept := fun i e hi hclean => absurd hclean (he i e hi)

theorem exists_slots (h : InFile s) : ∃ str val mitms secrets count entries,
    Slots s str val mitms secrets count entries ∧
      (if s.needsRewriting then [] else s.file.getD []) = str ++ (val ++ (mitms ++
        (records secretFormat secrets ++ (count ++ records entryFormat entries)))) := by
  cases hrew : s.needsRewriting with
  | true =>
      -- The file is emptied, and everything is written.
      refine ⟨_, _, _, _, _, _, slots_of_all ?_ ?_, rfl⟩ <;>
      · intro i e _
        rw [hrew, Bool.true_or]
        exact Bool.true_eq_false_eq_False
  | false =>
      rw [InFile] at h
      cases hfile : s.file with
      | none =>
          rw [hfile] at h
          -- Without a file everything is dirty.
          have hall : ∀ {α : Type} {l : List Element} {view : Entry → α}, Agrees l view [] →
              ∀ (i : Nat) (e : Element), l[i]? = some e →
                (s.needsRewriting || e.isDirty) ≠ false := by
            intro α l view hl i e he hclean
            rw [hrew, Bool.false_or] at hclean
            exact Option.some_ne_none _ (hl i e he hclean).symm
          exact ⟨_, _, _, _, _, _, slots_of_all (hall h.1) (hall h.2), rfl⟩
      | some octets =>
          rw [hfile] at h
          -- The slots are the parts of the stored file.
          obtain ⟨secrets, entries, rfl, _, hold⟩ := h
          obtain ⟨hlen, hle, hsecrets, hentries⟩ := hold.resolve_left fun htrue => by
            rw [hrew] at htrue
            exact Bool.false_ne_true htrue
          refine ⟨_, _, _, secrets, _, entries, ⟨.inl ⟨rfl, rfl, length_bigEndian 4 _,
            length_bigEndian 4 _, hlen⟩, hle, ?_, ?_⟩, rfl⟩
          · intro i e he hclean
            rw [hrew, Bool.false_or] at hclean
            exact hsecrets i e he hclean
          · intro i e he hclean
            rw [hrew, Bool.false_or] at hclean
            exact hentries i e he hclean

variable {str val mitms count : Octets} {secrets : List (Block 24 × String64)}
  {entries : List Entry}

/-- What a store does up to the MiTM secrets and their number. -/
theorem store_front (hslots : Slots s str val mitms secrets count entries)
    (hn : Numbered s.mitmcacheHead s.mitmcacheElemsCounter)
    (hfits : Fits s.mitmcacheHead.length s.cacheHead.length) :
    writeAt (flushElems secretFormat Entry.secret mitmPos s.needsRewriting
      (writeAt (writeAt (writeAt (str ++ (val ++ (mitms ++ (records secretFormat secrets ++
        (count ++ records entryFormat entries))))) 0 versionStr) versionStr.length versionVal)
        (pos32 (versionStr.length + versionVal.length)) (bigEndian 4 0)) s.mitmcacheHead)
      (pos32 (versionStr.length + versionVal.length))
      (bigEndian 4 s.mitmcacheElemsCounter.toNat) =
    (versionStr ++ (versionVal ++ (bigEndian 4 s.mitmcacheHead.length ++
      records secretFormat (s.mitmcacheHead.map (Entry.secret ∘ Element.entry))))) ++
        (count ++ records entryFormat entries) := by
  have hcount : s.mitmcacheElemsCounter.toNat = s.mitmcacheHead.length := by
    rw [hn.counter_eq, toNat_ofNat_of_lt hfits.count_lt.1]
  have hpos : pos32 (versionStr.length + versionVal.length) = (versionStr ++ versionVal).length :=
    rfl
  -- Either all slots are there, or none is and nothing follows. Every write of the front
  -- fills the slot that is next.
  have hstr : versionStr.length = str.length ∨ str = [] ∧ val ++ (mitms ++
      (records secretFormat secrets ++ (count ++ records entryFormat entries))) = [] := by
    rcases hslots.sized with ⟨rfl, _⟩ | ⟨rfl, rfl, rfl, rfl, rfl, rfl⟩
    · exact .inl rfl
    · exact .inr ⟨rfl, rfl⟩
  have hval : versionVal.length = val.length ∨ val = [] ∧ mitms ++
      (records secretFormat secrets ++ (count ++ records entryFormat entries)) = [] := by
    rcases hslots.sized with ⟨_, rfl, _⟩ | ⟨rfl, rfl, rfl, rfl, rfl, rfl⟩
    · exact .inl rfl
    · exact .inr ⟨rfl, rfl⟩
  have hzero : (bigEndian 4 0).length = mitms.length ∨ mitms = [] ∧
      records secretFormat secrets ++ (count ++ records entryFormat entries) = [] := by
    rcases hslots.sized with ⟨_, _, hlen, _⟩ | ⟨rfl, rfl, rfl, rfl, rfl, rfl⟩
    · exact .inl (by rw [hlen, length_bigEndian])
    · exact .inr ⟨rfl, rfl⟩
  have hroom : count ++ records entryFormat entries = [] ∨
      secrets.length = s.mitmcacheHead.length := by
    rcases hslots.sized with ⟨_, _, _, _, hlen⟩ | ⟨rfl, rfl, rfl, rfl, rfl, rfl⟩
    · exact .inr hlen
    · exact .inl rfl
  have hle : secrets.length ≤ s.mitmcacheHead.length := by
    rcases hslots.sized with ⟨_, _, _, _, hlen⟩ | ⟨rfl, rfl, rfl, rfl, rfl, rfl⟩
    · exact Nat.le_of_eq hlen
    · exact Nat.zero_le _
  have hflush := @flushElems_records _ secretFormat Entry.secret mitmPos s.needsRewriting
    (versionStr ++ versionVal ++ bigEndian 4 0) (count ++ records entryFormat entries) secrets
    s.mitmcacheHead _ (Nat.succ_pos _) hn (fun i hi => ⟨Nat.lt_of_le_of_lt (by
      rw [mitmPos, mitmPos]
      exact Nat.add_le_add_left (Nat.mul_le_mul_right _ (Nat.le_of_lt hi)) _) hfits.1, rfl⟩)
    hslots.secrets_kept hle hroom
  have hfirst : writeAt (str ++ (val ++ (mitms ++ (records secretFormat secrets ++
      (count ++ records entryFormat entries))))) 0 versionStr = versionStr ++ (val ++ (mitms ++
        (records secretFormat secrets ++ (count ++ records entryFormat entries)))) :=
    @writeAt_slot [] _ _ _ hstr
  have hnumber : (bigEndian 4 s.mitmcacheHead.length).length = (bigEndian 4 0).length ∨
      bigEndian 4 0 = [] ∧ records secretFormat (s.mitmcacheHead.map
        (Entry.secret ∘ Element.entry)) ++ (count ++ records entryFormat entries) = [] :=
    .inl (by rw [length_bigEndian, length_bigEndian])
  rw [hfirst, writeAt_slot hval, hpos, ← List.append_assoc versionStr, writeAt_slot hzero]
  simp only [List.append_assoc] at hflush ⊢
  rw [hflush, hcount, ← List.append_assoc versionStr, writeAt_slot hnumber]
  simp only [List.append_assoc]

/-- What a store does behind the MiTM secrets. -/
theorem store_back {front : Octets} (hslots : Slots s str val mitms secrets count entries)
    (hn : Numbered s.cacheHead s.cacheElemsCounter)
    (hfits : Fits s.mitmcacheHead.length s.cacheHead.length)
    (hfront : front.length = mitmPos s.mitmcacheHead.length) :
    writeAt (flushElems entryFormat id (entryPos s.mitmcacheHead.length) s.needsRewriting
      (writeAt (front ++ (count ++ records entryFormat entries))
        (pos32 (mitmPos s.mitmcacheHead.length)) (bigEndian 4 0)) s.cacheHead)
      (pos32 (mitmPos s.mitmcacheHead.length)) (bigEndian 4 s.cacheElemsCounter.toNat) =
    front ++ (bigEndian 4 s.cacheHead.length ++
      records entryFormat (s.cacheHead.map Element.entry)) := by
  have hcount : s.cacheElemsCounter.toNat = s.cacheHead.length := by
    rw [hn.counter_eq, toNat_ofNat_of_lt hfits.count_lt.2]
  have hslot : (bigEndian 4 0).length = count.length ∨ count = [] ∧ records entryFormat entries =
      [] := by
    rcases hslots.sized with ⟨_, _, _, hlen, _⟩ | ⟨_, _, _, rfl, _, rfl⟩
    · exact .inl (by rw [hlen, length_bigEndian])
    · exact .inr ⟨rfl, rfl⟩
  have hflush := @flushElems_records Entry entryFormat id (entryPos s.mitmcacheHead.length)
    s.needsRewriting (front ++ bigEndian 4 0) [] entries s.cacheHead _ (Nat.succ_pos _) hn
    (fun i hi => ⟨hfits.2 i hi, by
      rw [entryPos, List.length_append, hfront, length_bigEndian]⟩) hslots.entries_kept
    hslots.entries_le (.inl rfl)
  rw [List.append_nil, List.append_nil, List.append_assoc, List.append_assoc] at hflush
  rw [pos32_of_lt hfits.1, ← hfront, writeAt_slot hslot, hflush, hcount,
    writeAt_slot (.inl (by rw [length_bigEndian, length_bigEndian]))]
  rfl

/-- A store leaves everything written. -/
theorem storeToFile_file (h : Kept s) (hfits : Fits s.mitmcacheHead.length s.cacheHead.length) :
    (storeToFile s).file = some (layout (s.mitmcacheHead.map (Entry.secret ∘ Element.entry))
      (s.cacheHead.map Element.entry)) := by
  obtain ⟨str, val, mitms, secrets, count, entries, hslots, hfile⟩ := exists_slots h.inFile
  have hcount : s.mitmcacheElemsCounter.toNat = s.mitmcacheHead.length := by
    rw [h.mitms.counter_eq, toNat_ofNat_of_lt hfits.count_lt.1]
  have hfront : (versionStr ++ (versionVal ++ (bigEndian 4 s.mitmcacheHead.length ++
      records secretFormat (s.mitmcacheHead.map (Entry.secret ∘ Element.entry))))).length =
        mitmPos s.mitmcacheHead.length := by
    rw [List.length_append, List.length_append, List.length_append, length_bigEndian,
      length_records, List.length_map, mitmPos]
    omega
  -- The front is what the second half finds in front of its slots.
  have hback := store_back hslots h.entries hfits hfront
  rw [← store_front hslots h.mitms hfits, ← hfile, ← hcount] at hback
  simp only [storeToFile]
  rw [hback, hcount, layout, List.length_map, List.length_map]
  simp only [List.append_assoc]

theorem cacheHead_storeToFile (s : Cache) :
    (storeToFile s).cacheHead = s.cacheHead.map fun e => { e with isDirty := false } := rfl

theorem mitmcacheHead_storeToFile (s : Cache) :
    (storeToFile s).mitmcacheHead = s.mitmcacheHead.map fun e => { e with isDirty := false } := rfl

theorem numbered_clean {l : List Element} {counter : UInt32} (h : Numbered l counter) :
    Numbered (l.map fun e => { e with isDirty := false }) counter where
  counter_eq := by rw [List.length_map, h.counter_eq]
  index_eq := by
    intro i e he
    rw [List.getElem?_map] at he
    obtain ⟨e₀, he₀, rfl⟩ := Option.map_eq_some_iff.1 he
    exact h.index_eq i e₀ he₀

theorem agrees_clean {α : Type} (l : List Element) (view : Entry → α) :
    Agrees (l.map fun e => { e with isDirty := false }) view
      (l.map (view ∘ Element.entry)) := by
  intro i (e : Element) he _
  rw [List.getElem?_map] at he ⊢
  obtain ⟨e₀, he₀, rfl⟩ := Option.map_eq_some_iff.1 he
  rw [he₀]
  rfl

theorem kept_store (h : Kept s) (hfits : Fits s.mitmcacheHead.length s.cacheHead.length) :
    Kept (storeToFile s) where
  entries := numbered_clean h.entries
  mitms := numbered_clean h.mitms
  inFile := by
    rw [InFile, storeToFile_file h hfits]
    refine ⟨_, _, rfl, by rwa [List.length_map, List.length_map], .inr ⟨?_, ?_, ?_, ?_⟩⟩
    · rw [List.length_map]
      exact (List.length_map _).symm
    · rw [List.length_map]
      exact Nat.le_of_eq (List.length_map _).symm
    · exact agrees_clean _ _
    · exact agrees_clean _ id

/-- What was stored is read back. -/
theorem readsBack_store (h : Kept s)
    (hfits : Fits s.mitmcacheHead.length s.cacheHead.length) : ReadsBack (storeToFile s) := by
  intro unread
  rw [storeToFile_file h hfits]
  refine ⟨_, create_layout (by rwa [List.length_map, List.length_map]), ?_, ?_⟩
  · refine (map_mapIdx_view (s.cacheHead.map Element.entry) (fun _ entry => entry) id
      fun _ _ => rfl).trans ?_
    rw [cacheHead_storeToFile, List.map_map]
    rfl
  · refine (map_mapIdx_view _ _ Entry.secret fun _ _ => rfl).trans ?_
    rw [mitmcacheHead_storeToFile, List.map_map]
    rfl

end Store

end CacheFile

end Zrtp

end CryptoOpal
