import CryptoOpal.Lib.RecordFile
import CryptoOpal.Zrtp.Contention

/-!
# The Cache File

The secrets that two ends share are kept in a cache between calls, and
`zrtp_cache_file.c` keeps that cache in a file. The entries are in lists in
memory: one for regular secrets, one for those shared with a trusted MiTM.
The file has a version, the number of MiTM secrets, these secrets, the number
of entries, and the entries.

A store writes only the entries that were changed since the last one, each at
a position computed from its number. MiTM secrets lie in front of the entries,
so a change to them has the file written from the beginning
(`needs_rewriting`). Positions are kept in a `uint32_t`.

What an entry has in memory only, its number and its dirty flag, is beside the
entry here. `zrtp_string64_t` has a length that is swapped to network order in
the file, and a maximum length that is not. Opening and writing the file does
not fail. The memory that `zrtp_sys_alloc` returns is a parameter, since what
a MiTM entry has besides its secret stays as it was there.

## Main definitions

* `String64`, `Entry`, `Element`: `zrtp_string64_t` and `zrtp_cache_entry_t`.
* `secretFormat`, `entryFormat`: How both kinds of entry lie in the file.
* `Cache`: `zrtp_cache_file_t`, together with the file.
* `storeToFile`: `zrtp_cache_store_to_file`.
* `cachePut`, `setVerified`, `putName`, `setPreshCounter`, `resetSince`: The
  operations.
* `create`: `zrtp_cache_file_create`, with `zrtp_cache_read_from_file`.
* `Op`, `Reaches`: Runs.
-/

namespace CryptoOpal

namespace Zrtp

namespace CacheFile

open Lib

/-- `zrtp_string64_t`. -/
structure String64 where
  length : UInt16
  maxLength : UInt16
  buffer : Block 68
  deriving DecidableEq

/-- `ZSTR_SET_EMPTY`, of a string that was all zeros. -/
def String64.empty : String64 := ⟨0, 67, Block.ofOctets 68 []⟩

/-- `zrtp_zstrcpy`. -/
def String64.copy (dst src : String64) : String64 :=
  let length := if dst.maxLength < src.length then dst.maxLength else src.length
  let octets := overwrite dst.buffer.octets 0 (src.buffer.octets.take length.toNat)
  { dst with
    length := length
    buffer := Block.ofOctets 68
      (if length < dst.maxLength then overwrite octets length.toNat [0] else octets) }

/-- `zrtp_shared_secret_t`, as far as the cache reads it. -/
structure SharedSecret where
  value : String64
  lastusedAt : UInt32
  ttl : UInt32

/-- `zrtp_cache_entry_t`, as far as it is in the file. -/
structure Entry where
  id : Block 24
  currCache : String64
  prevCache : String64
  verified : UInt32
  lastusedAt : UInt32
  ttl : UInt32
  secureSince : UInt32
  name : Block 256
  nameLength : UInt32
  preshCounter : UInt32
  deriving DecidableEq

/-- An entry with its number and its dirty flag. -/
structure Element where
  entry : Entry
  index : UInt32
  isDirty : Bool

/-- A number of 16 bits in the order of the host. -/
def hostFormat16 : RecordFormat UInt16 where
  size := 2
  write := fun n => (format16.write n).reverse
  read := fun octets => format16.read octets.reverse
  length_write := fun n => by rw [List.length_reverse]; exact format16.length_write n
  read_write := fun n => by rw [List.reverse_reverse]; exact format16.read_write n

/-- How `zrtp_cache_entry_make_cross` and `fwrite` put a string into the file. -/
def string64Format : RecordFormat String64 :=
  (format16.pair (hostFormat16.pair (blockFormat 68))).map
    (fun s => (s.length, s.maxLength, s.buffer)) (fun t => ⟨t.1, t.2.1, t.2.2⟩) fun _ => rfl

/-- The first `ZRTP_MITMCACHE_ELEM_LENGTH` octets of an entry: its identifier and its secret. -/
def secretFormat : RecordFormat (Block 24 × String64) := (blockFormat 24).pair string64Format

/-- The `ZRTP_CACHE_ELEM_LENGTH` octets of an entry. -/
def entryFormat : RecordFormat Entry :=
  (secretFormat.pair (string64Format.pair (format32.pair (format32.pair (format32.pair
    (format32.pair ((blockFormat 256).pair (format32.pair format32)))))))).map
    (fun e => ((e.id, e.currCache), e.prevCache, e.verified, e.lastusedAt, e.ttl, e.secureSince,
      e.name, e.nameLength, e.preshCounter))
    (fun ((id, curr), prev, verified, lastused, ttl, since, name, nameLength, presh) =>
      ⟨id, curr, prev, verified, lastused, ttl, since, name, nameLength, presh⟩)
    fun _ => rfl

example : secretFormat.size = 96 := rfl

example : entryFormat.size = 448 := rfl

/-- What a MiTM entry has in the file. -/
def Entry.secret (e : Entry) : Block 24 × String64 := (e.id, e.currCache)

/-- `zrtp_cache_file_t`, and the file it is configured for. -/
structure Cache where
  localZid : Octets
  autoStore : Bool
  cacheHead : List Element
  cacheElemsCounter : UInt32
  mitmcacheHead : List Element
  mitmcacheElemsCounter : UInt32
  needsRewriting : Bool
  file : Option Octets

/-- `ZRTP_DEF_CACHE_VERSION_STR`: `"libZRTP cache version="`. -/
def versionStr : Octets :=
  [0x6c, 0x69, 0x62, 0x5a, 0x52, 0x54, 0x50, 0x20, 0x63, 0x61, 0x63, 0x68, 0x65, 0x20,
    0x76, 0x65, 0x72, 0x73, 0x69, 0x6f, 0x6e, 0x3d]

/-- `ZRTP_DEF_CACHE_VERSION_VAL`: `"1.0"`. -/
def versionVal : Octets := [0x31, 0x2e, 0x30]

/-- Where the MiTM secret with a number lies. -/
def mitmPos (index : Nat) : Nat :=
  versionStr.length + versionVal.length + 4 + index * secretFormat.size

/-- Where the entry with a number lies, behind `mitms` MiTM secrets and the number of entries. -/
def entryPos (mitms index : Nat) : Nat := mitmPos mitms + 4 + index * entryFormat.size

/-- `pos` is a `uint32_t`. -/
def pos32 (pos : Nat) : Nat := pos % 2 ^ 32

/-- `flush_elem_` of the elements that are dirty, or of all of them. -/
def flushElems {α : Type} (p : RecordFormat α) (view : Entry → α) (pos : Nat → Nat) (all : Bool)
    (file : Octets) (l : List Element) : Octets :=
  writeRecords p file (l.map fun e =>
    ⟨pos32 (pos e.index.toNat), all || e.isDirty, view e.entry⟩)

/-- `zrtp_cache_store_to_file`. The two numbers are zero until their entries are written. -/
def storeToFile (s : Cache) : Cache :=
  -- "w+" empties the file, "r+" does not.
  let file := if s.needsRewriting then [] else s.file.getD []
  let file := writeAt file 0 versionStr
  let file := writeAt file versionStr.length versionVal
  let pos := pos32 (versionStr.length + versionVal.length)
  let file := writeAt file pos (bigEndian 4 0)
  let file := flushElems secretFormat Entry.secret mitmPos s.needsRewriting file s.mitmcacheHead
  let file := writeAt file pos (bigEndian 4 s.mitmcacheElemsCounter.toNat)
  let pos := pos32 (mitmPos s.mitmcacheElemsCounter.toNat)
  let file := writeAt file pos (bigEndian 4 0)
  let file := flushElems entryFormat id (entryPos s.mitmcacheElemsCounter.toNat) s.needsRewriting
    file s.cacheHead
  let file := writeAt file pos (bigEndian 4 s.cacheElemsCounter.toNat)
  { s with
    mitmcacheHead := s.mitmcacheHead.map fun e => { e with isDirty := false }
    cacheHead := s.cacheHead.map fun e => { e with isDirty := false }
    needsRewriting := false
    file := some file }

/-- A store, when `cache_auto_store` is on. -/
def autoStored (s : Cache) : Cache := if s.autoStore then storeToFile s else s

/-- The size of `zrtp_zid_t`. -/
def zidSize : Nat := 12

/-- `zrtp_cache_create_id`: The lower ZID comes first. -/
def createId (first second : Octets) : Block 24 :=
  if memcmp first second zidSize = .gt then
    Block.ofOctets 24 (second.take zidSize ++ first.take zidSize)
  else
    Block.ofOctets 24 (first.take zidSize ++ second.take zidSize)

/-- `get_elem`, the place in the list. -/
def getElem (l : List Element) (id : Block 24) : Option Nat :=
  l.findIdx? fun e => e.entry.id == id

/-- A new element: all zeros, with empty secrets. -/
def newElem (id : Block 24) (index now : UInt32) : Element where
  entry := ⟨id, .empty, .empty, 0, 0, 0, now, Block.ofOctets 256 [], 0, 0⟩
  index := index
  isDirty := false

/-- An element after a change to its entry. -/
def Element.change (f : Entry → Entry) (e : Element) : Element :=
  { e with entry := f e.entry, isDirty := true }

/-- What `cache_put` does to an entry. Only a regular one has a previous secret. -/
def Entry.put (rss : SharedSecret) (isMitm : Bool) (e : Entry) : Entry :=
  { e with
    prevCache := if !isMitm && 0 < e.currCache.length then e.prevCache.copy e.currCache
      else e.prevCache
    currCache := e.currCache.copy rss.value
    lastusedAt := rss.lastusedAt
    ttl := if isMitm then e.ttl else rss.ttl }

/-- A list and its counter after a put. -/
def putElem (l : List Element) (counter : UInt32) (id : Block 24) (now : UInt32)
    (f : Entry → Entry) : List Element × UInt32 :=
  match getElem l id with
  | some i => (l.modify i (Element.change f), counter)
  | none => (l ++ [(newElem id counter now).change f], counter + 1)

/-- `cache_put`. -/
def cachePut (s : Cache) (remoteZid : Octets) (rss : SharedSecret) (isMitm : Bool)
    (now : UInt32) : ZrtpStatus × Cache :=
  if remoteZid.length ≠ zidSize then
    (.badParam, s)
  else
    let id := createId s.localZid remoteZid
    if isMitm then
      let put := putElem s.mitmcacheHead s.mitmcacheElemsCounter id now (Entry.put rss true)
      (.ok, autoStored { s with
        mitmcacheHead := put.1
        mitmcacheElemsCounter := put.2
        needsRewriting := true })
    else
      let put := putElem s.cacheHead s.cacheElemsCounter id now (Entry.put rss false)
      (.ok, autoStored { s with cacheHead := put.1, cacheElemsCounter := put.2 })

/-- A change to the entry of a peer. Some operations store also when there is no entry. -/
def update (s : Cache) (remoteZid : Octets) (f : Entry → Entry) (storesAlways : Bool) :
    ZrtpStatus × Cache :=
  if remoteZid.length ≠ zidSize then
    (.badParam, s)
  else
    match getElem s.cacheHead (createId s.localZid remoteZid) with
    | some i => (.ok, autoStored { s with cacheHead := s.cacheHead.modify i (Element.change f) })
    | none => (.fail, if storesAlways then autoStored s else s)

/-- `zrtp_file_cache_set_verified`. -/
def setVerified (s : Cache) (remoteZid : Octets) (verified : UInt32) : ZrtpStatus × Cache :=
  update s remoteZid (fun e => { e with verified := verified }) false

/-- `zrtp_file_cache_reset_since`. -/
def resetSince (s : Cache) (remoteZid : Octets) (now : UInt32) : ZrtpStatus × Cache :=
  update s remoteZid (fun e => { e with secureSince := now }) true

/-- `zrtp_file_cache_put_name`. A name has room for `ZFONE_CACHE_NAME_LENGTH - 1` octets. -/
def putName (s : Cache) (remoteZid name : Octets) : ZrtpStatus × Cache :=
  update s remoteZid (fun e => { e with
    nameLength := UInt32.ofNat (min name.length 255)
    name := Block.ofOctets 256 (name.take (min name.length 255)) }) true

/-- `zrtp_file_cache_set_presh_counter`. -/
def setPreshCounter (s : Cache) (remoteZid : Octets) (counter : UInt32) : ZrtpStatus × Cache :=
  update s remoteZid (fun e => { e with preshCounter := counter }) true

/-- A number of four octets, and what follows it. -/
def readCount (octets : Octets) : Option (Nat × Octets) :=
  if octets.length < 4 then none else some (ofBigEndian (octets.take 4), octets.drop 4)

/-- The lists of `zrtp_cache_read_from_file`, `none` when the file is too short for them. -/
def readLists (octets : Octets) : Option (List (Block 24 × String64) × List Entry) :=
  (readCount octets).bind fun count =>
  (readRecords secretFormat count.1 count.2).bind fun secrets =>
  (readCount secrets.2).bind fun count =>
  (readRecords entryFormat count.1 count.2).map fun entries => (secrets.1, entries.1)

/-- A cache with no entries. -/
def Cache.empty (localZid : Octets) (autoStore : Bool) (file : Option Octets) : Cache :=
  ⟨localZid, autoStore, [], 0, [], 0, false, file⟩

/-- `zrtp_cache_file_create`. `unread` is what was in the memory of the MiTM elements. -/
def create (localZid : Octets) (autoStore : Bool) (unread : Nat → Entry)
    (file : Option Octets) : Option Cache :=
  let s := Cache.empty localZid autoStore file
  match file with
  | none => some s
  | some octets =>
    -- A file of another version is ignored.
    if octets.take (versionStr.length + versionVal.length) ≠ versionStr ++ versionVal then
      some s
    else
      (readLists (octets.drop (versionStr.length + versionVal.length))).map fun lists =>
        { s with
          mitmcacheHead := lists.1.mapIdx fun i secret =>
            ⟨{ unread i with id := secret.1, currCache := secret.2 }, UInt32.ofNat i, false⟩
          mitmcacheElemsCounter := UInt32.ofNat lists.1.length
          cacheHead := lists.2.mapIdx fun i entry => ⟨entry, UInt32.ofNat i, false⟩
          cacheElemsCounter := UInt32.ofNat lists.2.length }

/-- An operation. `reopen` leaves the cache in memory and creates a new one on its file. -/
inductive Op where
  | put (remoteZid : Octets) (rss : SharedSecret) (now : UInt32)
  | putMitm (remoteZid : Octets) (rss : SharedSecret) (now : UInt32)
  | setVerified (remoteZid : Octets) (verified : UInt32)
  | putName (remoteZid name : Octets)
  | setPreshCounter (remoteZid : Octets) (counter : UInt32)
  | resetSince (remoteZid : Octets) (now : UInt32)
  | store
  | reopen (autoStore : Bool) (unread : Nat → Entry)

/-- What an operation does. -/
def Op.apply (s : Cache) : Op → ZrtpStatus × Cache
  | put remoteZid rss now => cachePut s remoteZid rss false now
  | putMitm remoteZid rss now => cachePut s remoteZid rss true now
  | setVerified remoteZid verified => CacheFile.setVerified s remoteZid verified
  | putName remoteZid name => CacheFile.putName s remoteZid name
  | setPreshCounter remoteZid counter => CacheFile.setPreshCounter s remoteZid counter
  | resetSince remoteZid now => CacheFile.resetSince s remoteZid now
  | store => (.ok, storeToFile s)
  | reopen autoStore unread =>
    match create s.localZid autoStore unread s.file with
    | some s' => (.ok, s')
    | none => (.fail, s)

/-- An operation that succeeds stores the cache. -/
def Op.stores (s : Cache) : Op → Bool
  | store => true
  | reopen .. => false
  | _ => s.autoStore

/-- One more element, unless the peer has one already. -/
def more (s : Cache) (l : List Element) (remoteZid : Octets) : Nat :=
  if (getElem l (createId s.localZid remoteZid)).isNone then l.length + 1 else l.length

/-- Every position at which something is stored fits a `uint32_t`. -/
def Fits (mitms entries : Nat) : Prop :=
  mitmPos mitms < 2 ^ 32 ∧ ∀ i < entries, entryPos mitms i < 2 ^ 32

instance (mitms entries : Nat) : Decidable (Fits mitms entries) :=
  inferInstanceAs (Decidable (_ ∧ ∀ i < entries, entryPos mitms i < 2 ^ 32))

/-- What an operation is to store has a place in the file. -/
def Op.HasRoom (s : Cache) : Op → Prop
  | put remoteZid _ _ => Fits s.mitmcacheHead.length (more s s.cacheHead remoteZid)
  | putMitm remoteZid _ _ => Fits (more s s.mitmcacheHead remoteZid) s.cacheHead.length
  | _ => Fits s.mitmcacheHead.length s.cacheHead.length

/-- A run of successful operations that all meet a condition. -/
inductive Reaches (meets : Cache → Op → Prop) (start : Cache) : Cache → Prop
  | refl : Reaches meets start start
  | step {s : Cache} (op : Op) : Reaches meets start s → (op.apply s).1 = .ok → meets s op →
    Reaches meets start (op.apply s).2

/-- A new cache on the stored file has the same entries, and the same MiTM secrets. -/
def ReadsBack (s : Cache) : Prop :=
  ∀ unread, ∃ s', create s.localZid s.autoStore unread s.file = some s' ∧
    s'.cacheHead.map Element.entry = s.cacheHead.map Element.entry ∧
    s'.mitmcacheHead.map (Entry.secret ∘ Element.entry) =
      s.mitmcacheHead.map (Entry.secret ∘ Element.entry)

end CacheFile

end Zrtp

end CryptoOpal
