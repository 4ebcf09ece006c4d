import CryptoOpal.Lib.Octets

/-!
# Files of Records

Records of one size lie one behind another in a file, and a record is replaced
by writing over it in place. A `RecordFormat` is how a record is written, in a
number of octets that is always the same, and how it is read back.

A file is an octet string. Writing behind its end fills the gap with zeros. To
write a record with a number changes the list of records at that place, or
makes it longer by one. A program that writes only what has changed leaves the
same file as one that writes everything (`writeRecords_records`).

## Main definitions

* `RecordFormat`: How a record is written and read.
* `RecordFormat.pair`, `RecordFormat.map`: Records made of parts.
* `writeAt`: Write into a file.
* `records`, `readRecords`: Many records, written and read.
* `RecordWrite`, `writeRecords`: Writes of single records, one after the other.

## Theorems

* `readRecords_records`: What was written is read.
* `write_record_set`, `write_record_end`: A record is replaced, or added.
* `writeRecords_records`: Writes to one record after the other leave the new
  records, when those that are left out were there already.
-/

namespace CryptoOpal

namespace Lib

/-- How a record is written, and read back. -/
structure RecordFormat (α : Type) where
  size : Nat
  write : α → Octets
  read : Octets → α
  length_write : ∀ a, (write a).length = size
  read_write : ∀ a, read (write a) = a

namespace RecordFormat

variable {α β : Type}

/-- One part behind another. -/
def pair (p : RecordFormat α) (q : RecordFormat β) : RecordFormat (α × β) where
  size := p.size + q.size
  write := fun ab => p.write ab.1 ++ q.write ab.2
  read := fun octets => (p.read (octets.take p.size), q.read (octets.drop p.size))
  length_write := by
    intro ab
    rw [List.length_append, p.length_write, q.length_write]
  read_write := by
    intro ab
    rw [← p.length_write ab.1, List.take_left, List.drop_left, p.read_write, q.read_write]

/-- The same octets for something that is given by its parts. -/
def map (p : RecordFormat α) (parts : β → α) (make : α → β) (h : ∀ b, make (parts b) = b) :
    RecordFormat β where
  size := p.size
  write := fun b => p.write (parts b)
  read := fun octets => make (p.read octets)
  length_write := fun b => p.length_write (parts b)
  read_write := by
    intro b
    rw [p.read_write, h]

end RecordFormat

/-- Octets of a fixed number. -/
structure Block (n : Nat) where
  octets : Octets
  length_octets : octets.length = n
  deriving DecidableEq

/-- The first `n` octets, filled up with zeros. -/
def Block.ofOctets (n : Nat) (octets : Octets) : Block n where
  octets := (octets ++ List.replicate n 0).take n
  length_octets := by
    rw [List.length_take, List.length_append, List.length_replicate]
    omega

theorem Block.ofOctets_octets {n : Nat} (b : Block n) : Block.ofOctets n b.octets = b := by
  rcases b with ⟨octets, rfl⟩
  simp only [Block.ofOctets, List.take_left]

/-- A block is written as it is. -/
def blockFormat (n : Nat) : RecordFormat (Block n) where
  size := n
  write := Block.octets
  read := Block.ofOctets n
  length_write := Block.length_octets
  read_write := Block.ofOctets_octets

/-- A number of 16 bits, most significant octet first. -/
def format16 : RecordFormat UInt16 where
  size := 2
  write := fun n => bigEndian 2 n.toNat
  read := fun octets => UInt16.ofNat (ofBigEndian octets)
  length_write := fun _ => length_bigEndian 2 _
  read_write := by
    intro n
    have hmod : ofBigEndian (bigEndian 2 n.toNat) = n.toNat := by
      rw [ofBigEndian_bigEndian]
      exact Nat.mod_eq_of_lt n.toNat_lt
    rw [hmod, UInt16.ofNat_toNat]

/-- A number of 32 bits, most significant octet first. -/
def format32 : RecordFormat UInt32 where
  size := 4
  write := fun n => bigEndian 4 n.toNat
  read := fun octets => UInt32.ofNat (ofBigEndian octets)
  length_write := fun _ => length_bigEndian 4 _
  read_write := by
    intro n
    have hmod : ofBigEndian (bigEndian 4 n.toNat) = n.toNat := by
      rw [ofBigEndian_bigEndian]
      exact Nat.mod_eq_of_lt n.toNat_lt
    rw [hmod, UInt32.ofNat_toNat]

/-- Write into a file. -/
def writeAt (file : Octets) (pos : Nat) (data : Octets) : Octets :=
  overwrite (file ++ List.replicate (pos - file.length) 0) pos data

section Write

variable {before middle after data : Octets}

/-- Write over a part of a file. -/
theorem writeAt_middle (h : data.length = middle.length) :
    writeAt (before ++ middle ++ after) before.length data = before ++ data ++ after := by
  have hzero : before.length - (before ++ middle ++ after).length = 0 := by
    rw [List.length_append, List.length_append]
    omega
  rw [writeAt, hzero, List.replicate_zero, List.append_nil, overwrite_middle before middle after
    data h]

/-- Write at the end of a file. -/
theorem writeAt_end (file data : Octets) : writeAt file file.length data = file ++ data := by
  rw [writeAt, Nat.sub_self, List.replicate_zero, List.append_nil, overwrite,
    List.take_length, List.drop_eq_nil_of_le (Nat.le_add_right _ _), List.append_nil]

/-- Write where there is a part of the same size, or nothing at all. -/
theorem writeAt_slot (h : data.length = middle.length ∨ middle = [] ∧ after = []) :
    writeAt (before ++ (middle ++ after)) before.length data = before ++ (data ++ after) := by
  rcases h with h | ⟨rfl, rfl⟩
  · rw [← List.append_assoc, writeAt_middle h, List.append_assoc]
  · rw [List.append_nil, List.append_nil, List.append_nil, writeAt_end]

theorem length_writeAt (file : Octets) (pos : Nat) (data : Octets) :
    (writeAt file pos data).length = max file.length (pos + data.length) := by
  simp only [writeAt, overwrite, List.length_append, List.length_take, List.length_drop,
    List.length_replicate]
  omega

theorem length_writeAt_le {file : Octets} {pos n : Nat} (hfile : file.length ≤ n)
    (hpos : pos + data.length ≤ n) : (writeAt file pos data).length ≤ n := by
  rw [length_writeAt]
  exact Nat.max_le.2 ⟨hfile, hpos⟩

end Write

variable {α : Type}

/-- Records one behind another. -/
def records (p : RecordFormat α) (l : List α) : Octets := l.flatMap p.write

/-- A number of records from the beginning, `none` when they are not all there. -/
def readRecords (p : RecordFormat α) : Nat → Octets → Option (List α × Octets)
  | 0, octets => some ([], octets)
  | n + 1, octets =>
    if octets.length < p.size then
      none
    else
      (readRecords p n (octets.drop p.size)).map fun done =>
        (p.read (octets.take p.size) :: done.1, done.2)

section Records

variable {p : RecordFormat α}

theorem length_records (p : RecordFormat α) (l : List α) :
    (records p l).length = l.length * p.size := by
  induction l with
  | nil => exact (Nat.zero_mul _).symm
  | cons a l ih =>
      rw [records, List.flatMap_cons, List.length_append, p.length_write, List.length_cons,
        Nat.add_mul, Nat.one_mul, Nat.add_comm]
      exact congrArg (· + p.size) ih

theorem records_append (p : RecordFormat α) (l l' : List α) :
    records p (l ++ l') = records p l ++ records p l' := List.flatMap_append

/-- What was written is read. -/
theorem readRecords_records (p : RecordFormat α) (l : List α) (rest : Octets) :
    readRecords p l.length (records p l ++ rest) = some (l, rest) := by
  induction l with
  | nil => rfl
  | cons a l ih =>
      have hcons : records p (a :: l) ++ rest = p.write a ++ (records p l ++ rest) := by
        rw [records, List.flatMap_cons, List.append_assoc]
        rfl
      have hlen : ¬ (p.write a ++ (records p l ++ rest)).length < p.size := by
        rw [List.length_append, p.length_write]
        omega
      rw [List.length_cons, readRecords, hcons, if_neg hlen, ← p.length_write a, List.take_left,
        List.drop_left, ih, Option.map_some, p.read_write]

/-- Records take up octets. -/
theorem length_of_readRecords {n : Nat} {octets rest : Octets} {l : List α}
    (h : readRecords p n octets = some (l, rest)) :
    n * p.size + rest.length = octets.length ∧ l.length = n := by
  induction n generalizing octets l rest with
  | zero =>
      cases h
      exact ⟨by rw [Nat.zero_mul, Nat.zero_add], rfl⟩
  | succ n ih =>
      rw [readRecords] at h
      split at h
      · exact absurd h.symm (Option.some_ne_none _)
      · rename_i hlen
        obtain ⟨⟨l', rest'⟩, hdone, hpair⟩ := Option.map_eq_some_iff.1 h
        have hrest := ih hdone
        rw [List.length_drop] at hrest
        rw [Prod.mk.injEq] at hpair
        obtain ⟨rfl, rfl⟩ := hpair
        rw [List.length_cons, hrest.2, Nat.add_mul, Nat.one_mul]
        exact ⟨by dsimp only; omega, rfl⟩

/-- A record is replaced in its place, whatever follows the records. -/
theorem write_record_set {before after : Octets} {l : List α} {i : Nat} (hi : i < l.length)
    (a : α) : writeAt (before ++ records p l ++ after) (before.length + i * p.size) (p.write a) =
      before ++ records p (l.set i a) ++ after := by
  have hsplit : l = l.take i ++ l[i] :: l.drop (i + 1) := by
    rw [← List.drop_eq_getElem_cons hi, List.take_append_drop]
  have hpos : (before ++ records p (l.take i)).length = before.length + i * p.size := by
    rw [List.length_append, length_records, List.length_take, Nat.min_eq_left (Nat.le_of_lt hi)]
  have hfile : before ++ records p l ++ after =
      (before ++ records p (l.take i)) ++ p.write l[i] ++ (records p (l.drop (i + 1)) ++ after) := by
    conv_lhs => rw [hsplit, records_append]
    simp only [records, List.flatMap_cons, List.append_assoc]
  have hset : l.set i a = l.take i ++ a :: l.drop (i + 1) := List.set_eq_take_append_cons_drop.trans
    (if_pos hi)
  rw [hfile, ← hpos, writeAt_middle (by rw [p.length_write, p.length_write]), hset,
    records_append]
  simp only [records, List.flatMap_cons, List.append_assoc]

/-- A record is added behind the last one, where nothing follows. -/
theorem write_record_end (before : Octets) (l : List α) (a : α) :
    writeAt (before ++ records p l) (before.length + l.length * p.size) (p.write a) =
      before ++ records p (l ++ [a]) := by
  have hpos : (before ++ records p l).length = before.length + l.length * p.size := by
    rw [List.length_append, length_records]
  rw [← hpos, writeAt_end, records_append, List.append_assoc]
  congr 2
  exact (List.append_nil _).symm

end Records

/-- A write of one record: where it goes, whether it is due, and the record. -/
structure RecordWrite (α : Type) where
  pos : Nat
  due : Bool
  record : α

/-- The file after a write, which is left out when it is not due. -/
def RecordWrite.apply (p : RecordFormat α) (file : Octets) (w : RecordWrite α) : Octets :=
  if w.due then writeAt file w.pos (p.write w.record) else file

/-- Writes of records, one after the other. -/
def writeRecords (p : RecordFormat α) (file : Octets) (ws : List (RecordWrite α)) : Octets :=
  ws.foldl (RecordWrite.apply p) file

section WriteRecords

variable {p : RecordFormat α} {before after : Octets} {done old : List α}

/-- The next record is written over the first old one, or behind the last new one. -/
theorem write_next {w : RecordWrite α} (hpos : w.pos = before.length + done.length * p.size)
    (hkept : w.due = false → old.head? = some w.record) (hroom : after = [] ∨ old ≠ []) :
    w.apply p (before ++ records p (done ++ old) ++ after) =
      before ++ records p (done ++ [w.record] ++ old.tail) ++ after := by
  cases old with
  | nil =>
      -- There is no old record that could be kept, so the write is due.
      have hdue : w.due = true := by
        cases hw : w.due with
        | false => exact absurd (hkept hw).symm (Option.some_ne_none _)
        | true => rfl
      have hafter : after = [] := hroom.resolve_right fun h => h rfl
      rw [RecordWrite.apply, if_pos hdue, hpos, hafter, List.append_nil, List.append_nil,
        write_record_end, List.tail_nil, List.append_nil, List.append_nil]
  | cons a old =>
      -- The write goes to the place of `a`, or leaves it when it is the same.
      rw [List.tail_cons, List.append_assoc done, List.singleton_append]
      cases hw : w.due with
      | false =>
          have hsame : a = w.record := Option.some.inj (hkept hw)
          rw [RecordWrite.apply, hw, if_neg Bool.false_ne_true, hsame]
      | true =>
          have hlt : done.length < (done ++ a :: old).length := by
            rw [List.length_append, List.length_cons]
            omega
          rw [RecordWrite.apply, hw, if_pos rfl, hpos, write_record_set hlt,
            List.set_append_right _ _ (Nat.le_refl _), Nat.sub_self, List.set_cons_zero]

/-- Writes to one record after the other leave the new records. -/
theorem writeRecords_records (ws : List (RecordWrite α))
    (hpos : ∀ (i : Nat) (w : RecordWrite α), ws[i]? = some w →
      w.pos = before.length + (done.length + i) * p.size)
    (hkept : ∀ (i : Nat) (w : RecordWrite α), ws[i]? = some w → w.due = false →
      old[i]? = some w.record)
    (hle : old.length ≤ ws.length) (hroom : after = [] ∨ old.length = ws.length) :
    writeRecords p (before ++ records p (done ++ old) ++ after) ws =
      before ++ records p (done ++ ws.map RecordWrite.record) ++ after := by
  -- Each write turns the first old record into the last new one.
  induction ws generalizing done old with
  | nil =>
      have hold : old = [] := List.eq_nil_of_length_eq_zero (Nat.le_zero.1 hle)
      rw [hold]
      rfl
  | cons w ws ih =>
      have hnext := write_next (hpos 0 w rfl)
        (fun hw => by rw [List.head?_eq_getElem?]; exact hkept 0 w rfl hw)
        (hroom.imp_right fun h hnil => by
          rw [hnil, List.length_nil, List.length_cons] at h
          exact absurd h.symm (Nat.succ_ne_zero _))
      rw [writeRecords, List.foldl_cons, hnext, ← writeRecords, ih]
      · rw [List.map_cons, List.append_assoc done, List.singleton_append]
      · intro i v hv
        rw [hpos (i + 1) v hv, List.length_append, List.length_singleton, Nat.add_assoc,
          Nat.add_comm 1 i]
      · intro i v hv hdue
        rw [List.getElem?_tail]
        exact hkept (i + 1) v hv hdue
      · rw [List.length_tail]
        rw [List.length_cons] at hle
        omega
      · refine hroom.imp_right fun h => ?_
        rw [List.length_tail]
        rw [List.length_cons] at h
        omega

/-- Writes that stay below a bound do not make a file longer than it. -/
theorem length_writeRecords_le {n : Nat} {file : Octets} (ws : List (RecordWrite α))
    (hfile : file.length ≤ n) (hpos : ∀ w ∈ ws, w.pos + p.size ≤ n) :
    (writeRecords p file ws).length ≤ n := by
  induction ws generalizing file with
  | nil => exact hfile
  | cons w ws ih =>
      refine ih ?_ fun v hv => hpos v (List.mem_cons_of_mem w hv)
      rw [RecordWrite.apply]
      split
      · exact length_writeAt_le hfile (by
          rw [p.length_write]
          exact hpos w List.mem_cons_self)
      · exact hfile

end WriteRecords

end Lib

end CryptoOpal
