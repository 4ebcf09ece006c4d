import CryptoOpal.Zrtp.CacheStore

/-!
# The Cache Survives a Restart

Any sequence of operations leaves a file from which a new cache gets the same
entries and the same MiTM secrets, when its last operation stored the cache.
Caches that are created on the file in between belong to the sequence.

The positions in the file have 32 bits. A cache with so many entries that a
position does not fit has its last entries written over the first ones, and
cannot be read back. The file never gets longer than the positions reach, and
that is too short for the entries (`not_readsBack`).

## Main definitions

* `crowd`: A cache with many peers.

## Theorems

* `apply_eq`: What an operation does.
* `kept_apply`, `kept_reaches`: The invariant holds in every run.
* `survives_restart`: A stored cache is read back, while positions fit.
* `lost_behind_4gb`: It is not when they do not.
-/

namespace CryptoOpal

namespace Zrtp

namespace CacheFile

open Lib

section Runs

variable {s : Cache} {l : List Element} {counter : UInt32}

theorem kept_empty (localZid : Octets) (autoStore : Bool) :
    Kept (Cache.empty localZid autoStore none) where
  entries := ⟨rfl, fun _ _ he => absurd he.symm (Option.some_ne_none _)⟩
  mitms := ⟨rfl, fun _ _ he => absurd he.symm (Option.some_ne_none _)⟩
  inFile := ⟨fun _ _ he => absurd he.symm (Option.some_ne_none _),
    fun _ _ he => absurd he.symm (Option.some_ne_none _)⟩

/-- A change to the entries. -/
theorem kept_entries (h : Kept s) (hchanged : Changed s.cacheHead s.cacheElemsCounter l counter) :
    Kept { s with cacheHead := l, cacheElemsCounter := counter } where
  entries := hchanged.numbered h.entries
  mitms := h.mitms
  inFile := by
    have hfile := h.inFile
    rw [InFile] at hfile ⊢
    split at hfile
    · rename_i hnone
      simp only [hnone]
      exact ⟨hfile.1, hchanged.agrees hfile.2⟩
    · rename_i octets hsome
      simp only [hsome]
      obtain ⟨secrets, entries, hlayout, hfits, hold⟩ := hfile
      exact ⟨secrets, entries, hlayout, hfits, hold.imp_right fun h =>
        ⟨h.1, Nat.le_trans h.2.1 hchanged.length_le, h.2.2.1, hchanged.agrees h.2.2.2⟩⟩

/-- A change to the MiTM secrets, which asks for a new file. -/
theorem kept_mitms (h : Kept s)
    (hchanged : Changed s.mitmcacheHead s.mitmcacheElemsCounter l counter) :
    Kept { s with
      mitmcacheHead := l
      mitmcacheElemsCounter := counter
      needsRewriting := true } where
  entries := h.entries
  mitms := hchanged.numbered h.mitms
  inFile := by
    have hfile := h.inFile
    rw [InFile] at hfile ⊢
    split at hfile
    · rename_i hnone
      simp only [hnone]
      exact ⟨hchanged.agrees hfile.1, hfile.2⟩
    · rename_i octets hsome
      simp only [hsome]
      obtain ⟨secrets, entries, hlayout, hfits, _⟩ := hfile
      exact ⟨secrets, entries, hlayout, hfits, .inl trivial⟩

/-- A new cache on the file of another one. -/
theorem kept_create {s' : Cache} {autoStore : Bool} {unread : Nat → Entry} (h : Kept s)
    (hcreate : create s.localZid autoStore unread s.file = some s') : Kept s' := by
  have hfile := h.inFile
  rw [InFile] at hfile
  -- A file that is there has a layout, and a new cache has exactly its lists.
  cases hold : s.file with
  | none =>
      rw [hold] at hcreate
      rw [← Option.some.inj hcreate]
      exact kept_empty s.localZid autoStore
  | some octets =>
      rw [hold] at hfile hcreate
      obtain ⟨secrets, entries, rfl, hfits, _⟩ := hfile
      rw [create_layout hfits] at hcreate
      rw [← Option.some.inj hcreate]
      refine ⟨numbered_mapIdx entries _, numbered_mapIdx secrets _, secrets, entries, rfl, hfits,
        .inr ⟨List.length_mapIdx.symm, Nat.le_of_eq List.length_mapIdx.symm, ?_, ?_⟩⟩
      · intro i (e : Element) he _
        rw [List.getElem?_mapIdx] at he
        obtain ⟨secret, hsecret, rfl⟩ := Option.map_eq_some_iff.1 he
        exact hsecret
      · intro i (e : Element) he _
        rw [List.getElem?_mapIdx] at he
        obtain ⟨entry, hentry, rfl⟩ := Option.map_eq_some_iff.1 he
        exact hentry

/-- A successful update changes one entry. -/
theorem update_ok {remoteZid : Octets} {f : Entry → Entry} {storesAlways : Bool}
    (hok : (update s remoteZid f storesAlways).1 = .ok) : ∃ i,
      (update s remoteZid f storesAlways).2 =
        autoStored { s with cacheHead := s.cacheHead.modify i (Element.change f) } := by
  rw [update] at hok ⊢
  split at hok
  · cases hok
  · rename_i hlen
    rw [if_neg hlen]
    cases hget : getElem s.cacheHead (createId s.localZid remoteZid) with
    | none =>
        rw [hget] at hok
        cases hok
    | some i => exact ⟨i, rfl⟩

/-- A successful put. -/
theorem cachePut_ok {remoteZid : Octets} {rss : SharedSecret} {isMitm : Bool} {now : UInt32}
    (hok : (cachePut s remoteZid rss isMitm now).1 = .ok) : remoteZid.length = zidSize := by
  rw [cachePut] at hok
  split at hok
  · cases hok
  · rename_i hlen
    exact Decidable.not_not.1 hlen

/-- An operation changes the cache in memory, and stores it or does not. -/
theorem apply_eq {op : Op} (h : Kept s) (hok : (op.apply s).1 = .ok) :
    (∃ autoStore unread, op = .reopen autoStore unread) ∨
      ∃ s', Kept s' ∧ (op.HasRoom s → Fits s'.mitmcacheHead.length s'.cacheHead.length) ∧
        (op.apply s).2 = if op.stores s then storeToFile s' else s' := by
  -- An update does not add elements.
  have hupdate : ∀ {remoteZid f storesAlways},
      (update s remoteZid f storesAlways).1 = .ok →
      ∃ s', Kept s' ∧ (Fits s.mitmcacheHead.length s.cacheHead.length →
        Fits s'.mitmcacheHead.length s'.cacheHead.length) ∧
        (update s remoteZid f storesAlways).2 = if s.autoStore then storeToFile s' else s' := by
    intro remoteZid f storesAlways hupdated
    obtain ⟨i, hi⟩ := update_ok hupdated
    refine ⟨_, kept_entries h (.modified i f), fun hfits => ?_, hi⟩
    show Fits _ (s.cacheHead.modify i (Element.change f)).length
    rwa [List.length_modify]
  cases op with
  | put remoteZid rss now =>
      refine .inr ⟨_, kept_entries h (changed_putElem s.cacheHead s.cacheElemsCounter
        (createId s.localZid remoteZid) now (Entry.put rss false)), fun hfits => ?_, ?_⟩
      · show Fits _ (putElem _ _ _ _ _).1.length
        rw [length_putElem]
        exact hfits
      · have hlen := cachePut_ok hok
        simp only [Op.apply, cachePut]
        rw [if_neg (fun hne => hne hlen)]
        rfl
  | putMitm remoteZid rss now =>
      refine .inr ⟨_, kept_mitms h (changed_putElem s.mitmcacheHead s.mitmcacheElemsCounter
        (createId s.localZid remoteZid) now (Entry.put rss true)), fun hfits => ?_, ?_⟩
      · show Fits (putElem _ _ _ _ _).1.length _
        rw [length_putElem]
        exact hfits
      · have hlen := cachePut_ok hok
        simp only [Op.apply, cachePut]
        rw [if_neg (fun hne => hne hlen)]
        rfl
  | setVerified remoteZid verified => exact .inr (hupdate hok)
  | putName remoteZid name => exact .inr (hupdate hok)
  | setPreshCounter remoteZid counter => exact .inr (hupdate hok)
  | resetSince remoteZid now => exact .inr (hupdate hok)
  | store => exact .inr ⟨s, h, fun hfits => hfits, rfl⟩
  | reopen autoStore unread => exact .inl ⟨autoStore, unread, rfl⟩

/-- An operation keeps the invariant. -/
theorem kept_apply {op : Op} (h : Kept s) (hok : (op.apply s).1 = .ok)
    (hroom : op.stores s = true → op.HasRoom s) : Kept (op.apply s).2 := by
  rcases apply_eq h hok with ⟨autoStore, unread, rfl⟩ | ⟨s', hkept, hfits, heq⟩
  · rw [Op.apply] at hok ⊢
    split at hok
    · rename_i s' hcreate
      exact kept_create h hcreate
    · cases hok
  · rw [heq]
    split
    · rename_i hstores
      exact kept_store hkept (hfits (hroom hstores))
    · exact hkept

/-- The invariant holds in every run. -/
theorem kept_reaches {start : Cache} (hstart : Kept start)
    (h : Reaches (fun s op => op.stores s = true → op.HasRoom s) start s) : Kept s := by
  induction h with
  | refl => exact hstart
  | step op _ hok hroom ih => exact kept_apply ih hok hroom

/-- **The cache survives a restart.** After any run from a cache without a file, with restarts in
between, an operation that stores leaves a file from which a new cache gets the same entries and
the same MiTM secrets, provided that what was stored had its place in the file. -/
theorem survives_restart {localZid : Octets} {autoStore : Bool} {op : Op}
    (h : Reaches (fun s op => op.stores s = true → op.HasRoom s)
      (Cache.empty localZid autoStore none) s)
    (hok : (op.apply s).1 = .ok) (hstores : op.stores s = true) (hroom : op.HasRoom s) :
    ReadsBack (op.apply s).2 := by
  have hkept := kept_reaches (kept_empty localZid autoStore) h
  rcases apply_eq hkept hok with ⟨_, _, rfl⟩ | ⟨s', hkept', hfits, heq⟩
  · exact absurd hstores Bool.false_ne_true
  · rw [heq, if_pos hstores]
    exact readsBack_store hkept' (hfits hroom)

end Runs

section Witness

/-- The cached secret of a call. -/
def callSecret : SharedSecret := ⟨⟨32, 67, Block.ofOctets 68 (List.replicate 32 0x5a)⟩, 0, 3600⟩

/-- A peer is put, and then its entry is stored. -/
theorem survives_restart_put :
    ReadsBack (Op.store.apply (Op.apply (Cache.empty (List.replicate 12 0) false none)
      (.put (List.replicate 12 1) callSecret 7)).2).2 :=
  survives_restart (.step (.put (List.replicate 12 1) callSecret 7) .refl rfl
    fun hstores => absurd hstores Bool.false_ne_true) rfl rfl (by
      show Fits 0 1
      decide)

end Witness

section Overflow

/-- An identifier has the octets of both ZIDs. -/
theorem octets_createId {own peer : Octets} (hown : own.length = 12) (hpeer : peer.length = 12) :
    (createId own peer).octets = own ++ peer ∨ (createId own peer).octets = peer ++ own := by
  have hblock : ∀ {a b : Octets}, a.length = 12 → b.length = 12 →
      (Block.ofOctets 24 (a.take zidSize ++ b.take zidSize)).octets = a ++ b := by
    intro a b ha hb
    have htake : ∀ {c : Octets}, c.length = 12 → c.take zidSize = c := fun hc =>
      List.take_of_length_le (Nat.le_of_eq hc)
    rw [Block.ofOctets, htake ha, htake hb]
    exact List.take_left' (by rw [List.length_append, ha, hb])
  rw [createId]
  split
  · exact .inr (hblock hpeer hown)
  · exact .inl (hblock hown hpeer)

/-- Two other peers have two identifiers. -/
theorem createId_inj {own a b : Octets} (hown : own.length = 12) (ha : a.length = 12)
    (hb : b.length = 12) (hao : a ≠ own) (hbo : b ≠ own) (h : createId own a = createId own b) :
    a = b := by
  -- An identifier begins with the lower of both ZIDs. When the two differ in which one that
  -- is, one of the peers has the ZID of this end.
  have hoctets := congrArg Block.octets h
  rcases octets_createId hown ha with hfirst | hfirst <;>
    rcases octets_createId hown hb with hsecond | hsecond <;>
    rw [hfirst, hsecond] at hoctets
  · exact (List.append_inj hoctets rfl).2
  · exact absurd (List.append_inj hoctets (hown.trans hb.symm)).1.symm hbo
  · exact absurd (List.append_inj hoctets (ha.trans hown.symm)).1 hao
  · exact (List.append_inj hoctets (ha.trans hb.symm)).1

/-- The ZID of this end. -/
def ownZid : Octets := List.replicate 12 0xff

/-- The ZID of a peer with a number. -/
def peerZid (n : Nat) : Octets := bigEndian 12 n

/-- A cache with an entry for each of many peers. -/
def crowd : Nat → Cache
  | 0 => Cache.empty ownZid false none
  | n + 1 => (Op.apply (crowd n) (.put (peerZid n) callSecret 0)).2

/-- The numbers that a ZID can have, but for this end's. -/
theorem peerZid_ne_ownZid {n : Nat} (h : n < 256 ^ 12 - 1) : peerZid n ≠ ownZid := by
  intro heq
  have hown : ownZid = bigEndian 12 (256 ^ 12 - 1) := by decide
  have hlast := bigEndian_inj (by omega) (by omega) (heq.trans hown)
  omega

theorem peerZid_inj {m n : Nat} (hm : m < 256 ^ 12 - 1) (hn : n < 256 ^ 12 - 1)
    (h : createId ownZid (peerZid m) = createId ownZid (peerZid n)) : m = n :=
  bigEndian_inj (by omega) (by omega) (createId_inj rfl (length_bigEndian 12 m)
    (length_bigEndian 12 n) (peerZid_ne_ownZid hm) (peerZid_ne_ownZid hn) h)

/-- Each peer of a crowd has an entry of its own. -/
theorem entries_crowd (n : Nat) (h : n < 256 ^ 12 - 1) :
    (crowd n).cacheHead.map (fun e => e.entry.id) =
      (List.range n).map (fun i => createId ownZid (peerZid i)) ∧
    (crowd n).localZid = ownZid ∧ (crowd n).autoStore = false ∧ (crowd n).file = none := by
  induction n with
  | zero => exact ⟨rfl, rfl, rfl, rfl⟩
  | succ n ih =>
      obtain ⟨hids, hown, hauto, hfile⟩ := ih (by omega)
      -- No element has the identifier of the next peer.
      have hnone : getElem (crowd n).cacheHead (createId ownZid (peerZid n)) = none := by
        rw [getElem, List.findIdx?_eq_none_iff]
        intro e he
        have hmem : e.entry.id ∈ (crowd n).cacheHead.map (fun e => e.entry.id) :=
          List.mem_map_of_mem he
        rw [hids] at hmem
        obtain ⟨i, hi, hid⟩ := List.mem_map.1 hmem
        have hlt := List.mem_range.1 hi
        refine beq_eq_false_iff_ne.2 fun heq => ?_
        have hsame := peerZid_inj (by omega) (by omega) (hid.trans heq)
        omega
      have hput : crowd (n + 1) = { crowd n with
          cacheHead := (crowd n).cacheHead ++ [(newElem (createId ownZid (peerZid n))
            (crowd n).cacheElemsCounter 0).change (Entry.put callSecret false)]
          cacheElemsCounter := (crowd n).cacheElemsCounter + 1 } := by
        simp only [crowd, Op.apply, cachePut]
        rw [if_neg (fun hne => hne (length_bigEndian 12 n)), hown]
        simp only [Bool.false_eq_true, if_false, putElem, hnone, autoStored, hauto]
      rw [hput]
      refine ⟨?_, hown, hauto, hfile⟩
      show ((crowd n).cacheHead ++ _).map _ = _
      rw [List.map_append, hids, List.range_succ, List.map_append]
      rfl

theorem reaches_crowd (n : Nat) : Reaches (fun _ _ => True) (crowd 0) (crowd n) := by
  induction n with
  | zero => exact .refl
  | succ n ih =>
      refine .step (.put (peerZid n) callSecret 0) ih ?_ trivial
      simp only [Op.apply, cachePut]
      rw [if_neg (fun hne => hne (length_bigEndian 12 n))]
      rfl

/-- A store cannot make a file longer than the positions reach. -/
theorem length_storeToFile {s : Cache} (h : s.file = none) :
    ∃ octets, (storeToFile s).file = some octets ∧ octets.length ≤ 2 ^ 32 + 448 := by
  refine ⟨_, rfl, ?_⟩
  -- No write begins behind the last position, and none is longer than an entry.
  have hcount : ∀ pos n, pos32 pos + (bigEndian 4 n).length ≤ 2 ^ 32 + 448 := by
    intro pos n
    have hlt := pos32_lt pos
    rw [length_bigEndian]
    omega
  have hbegin : (if s.needsRewriting then [] else s.file.getD []).length ≤ 2 ^ 32 + 448 := by
    rw [h, Option.getD_none, ite_self]
    exact Nat.zero_le _
  refine length_writeAt_le ?_ (hcount _ _)
  refine length_writeRecords_le _ ?_ ?_
  · refine length_writeAt_le ?_ (hcount _ _)
    refine length_writeAt_le ?_ (hcount _ _)
    refine length_writeRecords_le _ ?_ ?_
    · refine length_writeAt_le ?_ (hcount _ _)
      refine length_writeAt_le ?_ (by decide)
      exact length_writeAt_le hbegin (by decide)
    · intro w hw
      obtain ⟨e, _, rfl⟩ := List.mem_map.1 hw
      have hlt := pos32_lt (mitmPos e.index.toNat)
      rw [size_secretFormat]
      exact Nat.add_le_add (Nat.le_of_lt hlt) (by decide)
  · intro w hw
    obtain ⟨e, _, rfl⟩ := List.mem_map.1 hw
    exact Nat.add_le_add (Nat.le_of_lt (pos32_lt _)) (Nat.le_of_eq size_entryFormat)

/-- The entries that are read take up octets of the file. -/
theorem length_readLists {octets : Octets} {lists : List (Block 24 × String64) × List Entry}
    (h : readLists octets = some lists) : lists.2.length * 448 ≤ octets.length := by
  have hcount : ∀ {octets : Octets} {count : Nat × Octets}, readCount octets = some count →
      count.2.length ≤ octets.length := by
    intro octets count hcount
    rw [readCount] at hcount
    split at hcount
    · exact absurd hcount.symm (Option.some_ne_none _)
    · rw [← Option.some.inj hcount, List.length_drop]
      exact Nat.sub_le _ _
  rw [readLists] at h
  obtain ⟨first, hfirst, h⟩ := Option.bind_eq_some_iff.1 h
  obtain ⟨secrets, hsecrets, h⟩ := Option.bind_eq_some_iff.1 h
  obtain ⟨second, hsecond, h⟩ := Option.bind_eq_some_iff.1 h
  obtain ⟨entries, hentries, rfl⟩ := Option.map_eq_some_iff.1 h
  have hlen := @length_of_readRecords _ _ _ _ entries.2 entries.1 hentries
  have hlen' := @length_of_readRecords _ _ _ _ secrets.2 secrets.1 hsecrets
  have hle := hcount hfirst
  have hle' := hcount hsecond
  rw [size_entryFormat] at hlen
  show entries.1.length * 448 ≤ octets.length
  rw [hlen.2]
  omega

theorem length_create {localZid octets : Octets} {autoStore : Bool} {unread : Nat → Entry}
    {s : Cache} (h : create localZid autoStore unread (some octets) = some s) :
    s.cacheHead.length * 448 ≤ octets.length := by
  simp only [create] at h
  split at h
  · rw [← Option.some.inj h]
    show 0 * 448 ≤ octets.length
    rw [Nat.zero_mul]
    exact Nat.zero_le _
  · obtain ⟨lists, hlists, rfl⟩ := Option.map_eq_some_iff.1 h
    have hle := length_readLists hlists
    rw [List.length_drop] at hle
    show (lists.2.mapIdx _).length * 448 ≤ _
    rw [List.length_mapIdx]
    exact Nat.le_trans hle (Nat.sub_le _ _)

/-- More entries than there are positions for are not read back. -/
theorem not_readsBack {s : Cache} (hfile : s.file = none)
    (hmany : 2 ^ 32 + 448 < s.cacheHead.length * 448) : ¬ ReadsBack (storeToFile s) := by
  intro hreads
  obtain ⟨s', hcreate, hentries, _⟩ := hreads fun _ => (newElem (Block.ofOctets 24 []) 0 0).entry
  obtain ⟨octets, hoctets, hle⟩ := length_storeToFile hfile
  rw [hoctets] at hcreate
  -- As many entries as were stored would have to be in the file.
  have hlen : s'.cacheHead.length = s.cacheHead.length := by
    have hmap := congrArg List.length hentries
    rwa [List.length_map, List.length_map, cacheHead_storeToFile, List.length_map] at hmap
  have hfits := length_create hcreate
  rw [hlen] at hfits
  omega

/-- Ten million entries are stored, and a new cache has not as many. -/
theorem lost_behind_4gb : ¬ ∀ (localZid : Octets) (autoStore : Bool) (s : Cache) (op : Op),
    Reaches (fun _ _ => True) (Cache.empty localZid autoStore none) s → (op.apply s).1 = .ok →
      op.stores s = true → ReadsBack (op.apply s).2 := by
  intro hall
  obtain ⟨hids, _, _, hfile⟩ := entries_crowd 10000000 (by decide)
  have hlen : (crowd 10000000).cacheHead.length = 10000000 := by
    have hmap := congrArg List.length hids
    rwa [List.length_map, List.length_map, List.length_range] at hmap
  exact not_readsBack hfile (by rw [hlen]; decide)
    (hall ownZid false (crowd 10000000) .store (reaches_crowd 10000000) rfl rfl)

end Overflow

end CacheFile

end Zrtp

end CryptoOpal
