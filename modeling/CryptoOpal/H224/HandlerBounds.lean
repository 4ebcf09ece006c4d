import CryptoOpal.H224.Handler

/-!
# Received H.224 Frames, in Bounds

Nothing is compared with the size of the information field before it is read. A
frame with a field of a single octet is accepted, and its address has two. So
the handler stays inside exactly when the field is as long as what the frame
says that it is (`Q922Frame.reach`): its addresses, the client that it names as
far as the handler looks at it, and behind a message of the client 0 what the
message lists.

## Main definitions

* `clientIDOf`, `entryAt`: What the handler finds in a field.
* `matchReach`, `findReach`, `entriesReach`, `cmeReach`: How far it looks.
* `Q922Frame.reach`: How long the field has to be.

## Theorems

* `needs_matchesFrame`, `needs_findClient`: The search for a client.
* `needs_readClients`: A list of clients.
* `handledInside_iff`: When the handler stays inside.
-/

namespace CryptoOpal

namespace H224

open Lib (Octets Traced octetAt needs_octetAt needs_pure needs_bind value_bind value_pure)

section Reach

variable (field : Nat → UInt8)

/-- The client identifier of a frame. -/
def clientIDOf : UInt8 := field 4 &&& 0x7f

/-- Two octets of a field. -/
def word (i : Nat) : UInt16 := (field i).toUInt16 <<< 8 ||| (field (i + 1)).toUInt16

/-- The entry of a client whose further octets begin at `i`. -/
def entryAt (clientID : UInt8) (i : Nat) : ClientEntry :=
  if clientID = extendedClientIDCode then ⟨clientID, field i, 0xff, 0x00, 0x0000, 0x00⟩
  else if clientID = nonStandardClientID then
    ⟨clientID, 0x00, field i, field (i + 1), word field (i + 2), field (i + 4)⟩
  else ⟨clientID, 0x00, 0xff, 0x00, 0x0000, 0x00⟩

/-- How far a frame is compared with a client: up to the first octets that are different. -/
def matchReach (clientID : UInt8) (client : H224Client) : Nat :=
  if clientID < extendedClientIDCode then 0
  else if clientID = extendedClientIDCode then 6
  else if client.countryCode ≠ field 5 then 6
  else if client.countryCodeExtension ≠ field 6 then 7
  else if client.manufacturerCode ≠ word field 7 then 9
  else 10

/-- How far a frame is compared with the clients, up to the first one that it is for. -/
def findReach (clientID : UInt8) : List LocalClient → Nat
  | [] => 0
  | c :: clients =>
    if c.client.clientID = clientID then
      if Identifies (entryAt field clientID 5) c.client then matchReach field clientID c.client
      else max (matchReach field clientID c.client) (findReach clientID clients)
    else findReach clientID clients

/-- How far a list of so many clients goes, from `i` on. -/
def entriesReach : Nat → Nat → Nat
  | 0, _ => 0
  | numberOfClients + 1, i =>
    max (i + 1 + entryOctets (field i &&& 0x7f))
      (entriesReach numberOfClients (i + 1 + entryOctets (field i &&& 0x7f)))

/-- How far a frame for the client 0 goes. -/
def cmeReach : Nat :=
  if field 6 = 0x01 then
    if field 7 = 0x00 then max 9 (entriesReach field (field 8).toNat 9) else 8
  else if field 6 = 0x02 then
    if field 7 = 0x00 then 9 + entryOctets (field 8 &&& 0x7f) else 8
  else 7

/-- How long the information field has to be. A frame that is passed on has a whole header. -/
def fieldReach (clients : List LocalClient) : Nat :=
  if word field 0 ≠ broadcast then 2
  else if clientIDOf field = cmeClientID then cmeReach field
  else
    max (max 5 (findReach field (clientIDOf field) clients))
      (if ∃ c ∈ clients, Identifies (entryAt field (clientIDOf field) 5) c.client then
        headerSizeOf (clientIDOf field)
      else 0)

end Reach

/-- How long the information field of a frame has to be. -/
def Q922Frame.reach (f : Q922Frame) (clients : List LocalClient) : Nat :=
  fieldReach f.fieldOctets clients

section Needs

variable (field : Nat → UInt8)

theorem value_wordAt (i : Nat) : (wordAt field i).value = word field i := rfl

theorem needs_wordAt (i : Nat) : (wordAt field i).Needs (i + 2) :=
  (needs_bind (needs_octetAt field i)
    (needs_bind (needs_octetAt field (i + 1)) (needs_pure _))).of_eq (by omega)

theorem value_readClientID : (readClientID field).value = clientIDOf field := rfl

theorem needs_readClientID : (readClientID field).Needs 5 :=
  needs_bind (needs_octetAt field 4) (needs_pure _)

theorem needs_readHeaderSize : (readHeaderSize field).Needs 5 :=
  needs_bind (needs_readClientID field) (needs_pure _)

theorem needs_readClientDataSize (size : Nat) : (readClientDataSize field size).Needs 5 :=
  needs_bind (needs_readHeaderSize field) (needs_pure _)

variable {α : Type} {clientID : UInt8}

theorem value_readOf (hid : clientIDOf field = clientID) (none : α) (read : Traced α) :
    (readOf field clientID none read).value = read.value := by
  unfold readOf
  rw [value_bind, value_readClientID, hid, if_neg (not_not_intro rfl)]

/-- The getter of a client that it is looks at the identifier, and then at its own octets. -/
theorem needs_readOf (hid : clientIDOf field = clientID) (none : α) {read : Traced α} {k : Nat}
    (hread : read.Needs k) : (readOf field clientID none read).Needs (max 5 k) := by
  refine needs_bind (needs_readClientID field) ?_
  rw [value_readClientID, hid, if_neg (not_not_intro rfl)]
  exact hread

/-- A client identifier has seven bits. -/
theorem nonStandard_of {clientID : UInt8} (hknown : clientID ≤ 0x7f)
    (hlt : ¬clientID < extendedClientIDCode) (hne : clientID ≠ extendedClientIDCode) :
    clientID = nonStandardClientID := by
  have h : ∀ x : UInt8, x ≤ 0x7f → ¬x < extendedClientIDCode → x ≠ extendedClientIDCode →
      x = nonStandardClientID := Lib.forall_octet (by decide +kernel)
  exact h clientID hknown hlt hne

theorem clientIDOf_known : clientIDOf field ≤ 0x7f := by
  have h : ∀ x : UInt8, x &&& 0x7f ≤ 0x7f := Lib.forall_octet (by decide +kernel)
  exact h (field 4)

/-- The comparison with a client. -/
theorem needs_matchesFrame (hid : clientIDOf field = clientID) (client : H224Client) :
    (matchesFrame field clientID client).Needs (matchReach field clientID client) := by
  unfold matchesFrame matchReach
  by_cases hlt : clientID < extendedClientIDCode
  · rw [if_pos hlt, if_pos hlt]
    exact needs_pure _
  · rw [if_neg hlt, if_neg hlt]
    by_cases hextended : clientID = extendedClientIDCode
    · rw [if_pos hextended, if_pos hextended]
      exact needs_bind (needs_readOf field (hid.trans hextended) _ (needs_octetAt field 5))
        (needs_pure _)
    · rw [if_neg hextended, if_neg hextended]
      have hnon : clientIDOf field = nonStandardClientID :=
        nonStandard_of (clientIDOf_known field) (hid ▸ hlt) (hid ▸ hextended)
      -- A chain of comparisons, each of which is made when those before it hold.
      have hfirst := needs_readOf field hnon 0x00 (needs_octetAt field 5)
      have hsecond := needs_readOf field hnon 0x00 (needs_octetAt field 6)
      have hthird := needs_readOf field hnon 0x0000 (needs_wordAt field 7)
      have hfourth := needs_readOf field hnon 0x00 (needs_octetAt field 9)
      by_cases hcountry : client.countryCode = field 5
      · rw [if_neg (not_not_intro hcountry)]
        by_cases hextension : client.countryCodeExtension = field 6
        · rw [if_neg (not_not_intro hextension)]
          by_cases hmanufacturer : client.manufacturerCode = word field 7
          · rw [if_neg (not_not_intro hmanufacturer)]
            refine (needs_bind hfirst (k := 10) ?_).of_eq rfl
            rw [value_readOf field hnon, Lib.value_octetAt, if_pos hcountry]
            refine (needs_bind hsecond (k := 10) ?_).of_eq rfl
            rw [value_readOf field hnon, Lib.value_octetAt, if_pos hextension]
            refine (needs_bind hthird (k := 10) ?_).of_eq rfl
            rw [value_readOf field hnon, value_wordAt, if_pos hmanufacturer]
            exact (needs_bind hfourth (needs_pure _)).of_eq rfl
          · rw [if_pos hmanufacturer]
            refine (needs_bind hfirst (k := 9) ?_).of_eq rfl
            rw [value_readOf field hnon, Lib.value_octetAt, if_pos hcountry]
            refine (needs_bind hsecond (k := 9) ?_).of_eq rfl
            rw [value_readOf field hnon, Lib.value_octetAt, if_pos hextension]
            refine (needs_bind hthird (k := 0) ?_).of_eq rfl
            rw [value_readOf field hnon, value_wordAt, if_neg hmanufacturer]
            exact needs_pure _
        · rw [if_pos hextension]
          refine (needs_bind hfirst (k := 7) ?_).of_eq rfl
          rw [value_readOf field hnon, Lib.value_octetAt, if_pos hcountry]
          refine (needs_bind hsecond (k := 0) ?_).of_eq rfl
          rw [value_readOf field hnon, Lib.value_octetAt, if_neg hextension]
          exact needs_pure _
      · rw [if_pos hcountry]
        refine (needs_bind hfirst (k := 0) ?_).of_eq rfl
        rw [value_readOf field hnon, Lib.value_octetAt, if_neg hcountry]
        exact needs_pure _

theorem entryAt_clientID (clientID : UInt8) (i : Nat) :
    (entryAt field clientID i).clientID = clientID := by
  unfold entryAt
  split
  · rfl
  · split
    · rfl
    · rfl

/-- A non-standard client is identified by its further octets. -/
theorem identifies_nonStandard {client : H224Client} (hclient : client.clientID = nonStandardClientID) :
    Identifies (entryAt field nonStandardClientID 5) client ↔ client.countryCode = field 5 ∧
      client.countryCodeExtension = field 6 ∧ client.manufacturerCode = word field 7 ∧
      client.manufacturerClientID = field 9 := by
  constructor
  · rintro ⟨-, h | h | h⟩
    · exact absurd h (show ¬nonStandardClientID < extendedClientIDCode by decide)
    · exact absurd h.1 (show nonStandardClientID ≠ extendedClientIDCode by decide)
    · exact h.2
  · intro h
    exact ⟨hclient, Or.inr (Or.inr ⟨rfl, h⟩)⟩

/-- What the comparison with a client finds. -/
theorem value_matchesFrame (hid : clientIDOf field = clientID) (client : H224Client)
    (hclient : client.clientID = clientID) : (matchesFrame field clientID client).value =
      decide (Identifies (entryAt field clientID 5) client) := by
  unfold matchesFrame
  by_cases hlt : clientID < extendedClientIDCode
  · have hentry := entryAt_clientID field clientID 5
    have hmatches : Identifies (entryAt field clientID 5) client :=
      ⟨hclient.trans hentry.symm, Or.inl (by rw [hentry]; exact hlt)⟩
    rw [if_pos hlt, decide_eq_true hmatches]
    rfl
  · rw [if_neg hlt]
    by_cases hextended : clientID = extendedClientIDCode
    · rw [if_pos hextended, value_bind, value_readOf field (hid.trans hextended)]
      subst hextended
      refine decide_eq_decide.2 ⟨fun h => ⟨hclient, Or.inr (Or.inl ⟨rfl, h⟩)⟩, ?_⟩
      rintro ⟨-, h | h | h⟩
      · exact absurd h hlt
      · exact h.2
      · exact absurd h.1 (show extendedClientIDCode ≠ nonStandardClientID by decide)
    · have hnon : clientID = nonStandardClientID :=
        nonStandard_of (hid ▸ clientIDOf_known field) hlt hextended
      subst hnon
      have hmatches := identifies_nonStandard field hclient
      have hdecide : decide (Identifies (entryAt field nonStandardClientID 5) client) =
          decide (client.countryCode = field 5 ∧ client.countryCodeExtension = field 6 ∧
            client.manufacturerCode = word field 7 ∧ client.manufacturerClientID = field 9) :=
        decide_eq_decide.2 hmatches
      rw [if_neg hextended, value_bind, value_readOf field hid, Lib.value_octetAt, hdecide]
      by_cases hcountry : client.countryCode = field 5
      · rw [if_pos hcountry, value_bind, value_readOf field hid, Lib.value_octetAt]
        by_cases hextension : client.countryCodeExtension = field 6
        · rw [if_pos hextension, value_bind, value_readOf field hid, value_wordAt]
          by_cases hmanufacturer : client.manufacturerCode = word field 7
          · rw [if_pos hmanufacturer, value_bind, value_readOf field hid, Lib.value_octetAt]
            simp only [value_pure, hcountry, hextension, hmanufacturer, true_and]
          · rw [if_neg hmanufacturer]
            simp only [value_pure, hmanufacturer, false_and, and_false, decide_false]
        · rw [if_neg hextension]
          simp only [value_pure, hextension, false_and, and_false, decide_false]
      · rw [if_neg hcountry]
        simp only [value_pure, hcountry, false_and, decide_false]

/-- A client that an entry identifies has its identifier. -/
theorem identifies_clientID {i : Nat} {client : H224Client}
    (h : Identifies (entryAt field clientID i) client) : client.clientID = clientID :=
  h.1.trans (entryAt_clientID field clientID i)

/-- The search for the client that a frame is for. -/
theorem needs_findClient (hid : clientIDOf field = clientID) (clients : List LocalClient) :
    (findClient field clientID clients).Needs (findReach field clientID clients) ∧
      ((findClient field clientID clients).value.isSome ↔
        ∃ c ∈ clients, Identifies (entryAt field clientID 5) c.client) := by
  induction clients with
  | nil =>
      refine ⟨needs_pure _, iff_of_false (by simp [findClient, value_pure]) ?_⟩
      rintro ⟨c, hc, -⟩
      exact absurd hc List.not_mem_nil
  | cons c clients ih =>
      unfold findClient findReach
      by_cases hclient : c.client.clientID = clientID
      · have hneeds := needs_matchesFrame field hid c.client
        have hvalue := value_matchesFrame field hid c.client hclient
        rw [if_pos hclient, if_pos hclient]
        by_cases hmatches : Identifies (entryAt field clientID 5) c.client
        · rw [if_pos hmatches]
          rw [decide_eq_true hmatches] at hvalue
          refine ⟨(needs_bind hneeds (k := 0) ?_).of_eq (Nat.max_zero _), iff_of_true ?_
            ⟨c, List.mem_cons_self, hmatches⟩⟩
          · rw [hvalue, if_pos rfl]
            exact needs_pure _
          · rw [value_bind, hvalue, if_pos rfl]
            rfl
        · rw [if_neg hmatches]
          rw [decide_eq_false hmatches] at hvalue
          refine ⟨needs_bind hneeds ?_, ?_⟩
          · rw [hvalue, if_neg Bool.false_ne_true]
            exact ih.1
          · rw [value_bind, hvalue, if_neg Bool.false_ne_true, ih.2, List.exists_mem_cons_iff,
              or_iff_right hmatches]
      · rw [if_neg hclient, if_neg hclient]
        refine ⟨ih.1, ih.2.trans ?_⟩
        rw [List.exists_mem_cons_iff]
        exact (or_iff_right fun h => hclient (identifies_clientID field h)).symm

/-- The further octets of a client in a list. -/
theorem needs_readEntry (clientID : UInt8) (i : Nat) :
    ∃ k, (readEntry field clientID i).Needs k ∧ k ≤ i + entryOctets clientID ∧
      (entryOctets clientID ≠ 0 → k = i + entryOctets clientID) := by
  unfold readEntry entryOctets
  by_cases hextended : clientID = extendedClientIDCode
  · rw [if_pos hextended, if_pos hextended]
    exact ⟨i + 1, (needs_bind (needs_octetAt field i) (needs_pure _)).of_eq rfl, Nat.le_refl _,
      fun _ => rfl⟩
  · rw [if_neg hextended, if_neg hextended]
    by_cases hnon : clientID = nonStandardClientID
    · rw [if_pos hnon, if_pos hnon]
      refine ⟨i + 5, Traced.Needs.of_eq
        (j := max (i + 1) (max (i + 2) (max (i + 4) (max (i + 5) 0)))) ?_ (by omega),
        Nat.le_refl _, fun _ => rfl⟩
      refine needs_bind (needs_octetAt field i) ?_
      refine needs_bind (needs_octetAt field (i + 1)) ?_
      refine needs_bind (needs_wordAt field (i + 2)) ?_
      exact needs_bind (needs_octetAt field (i + 4)) (needs_pure _)
    · rw [if_neg hnon, if_neg hnon]
      exact ⟨0, needs_pure _, Nat.zero_le _, fun h => absurd rfl h⟩

/-- An entry of a list: its identifier and what follows. -/
theorem needs_entry (j : Nat) (f : UInt8 → ClientEntry → Traced α) {k : Nat}
    (hf : (f (field j) (readEntry field (field j &&& 0x7f) (j + 1)).value).Needs k) :
    (octetAt field j >>= fun octet => readEntry field (octet &&& 0x7f) (j + 1) >>= f octet).Needs
      (max (j + 1 + entryOctets (field j &&& 0x7f)) k) := by
  rcases needs_readEntry field (field j &&& 0x7f) (j + 1) with ⟨e, hneeds, hle, heq⟩
  refine (needs_bind (needs_octetAt field j) (needs_bind hneeds hf)).of_eq ?_
  by_cases hzero : entryOctets (field j &&& 0x7f) = 0
  · rw [hzero] at hle ⊢
    omega
  · rw [heq hzero]
    omega

/-- A list of clients. -/
theorem needs_readClients (data numberOfClients : Nat) : ∀ (dataIndex : Nat)
    (clients : List LocalClient), (readClients field data numberOfClients dataIndex clients).Needs
      (entriesReach field numberOfClients (data + dataIndex)) := by
  induction numberOfClients with
  | zero => exact fun _ _ => needs_pure _
  | succ numberOfClients ih =>
      intro dataIndex clients
      refine needs_entry field (data + dataIndex) (fun octet entry =>
        readClients field data numberOfClients (dataIndex + 1 + entryOctets (octet &&& 0x7f))
          (markAvailable entry (decide (octet &&& 0x80 ≠ 0)) clients)) ?_
      have hindex : data + dataIndex + 1 + entryOctets (field (data + dataIndex) &&& 0x7f) =
          data + (dataIndex + 1 + entryOctets (field (data + dataIndex) &&& 0x7f)) := by omega
      rw [hindex]
      exact ih _ _

end Needs

section Messages

variable (field : Nat → UInt8) (size : Nat) (clients : List LocalClient)

/-- The header of a frame for the client 0 has six octets. -/
theorem value_readHeaderSize (hid : clientIDOf field = cmeClientID) :
    (readHeaderSize field).value = 6 := by
  show headerSizeOf (clientIDOf field) = 6
  rw [hid]
  rfl

theorem needs_onReceivedClientList (hid : clientIDOf field = cmeClientID) :
    (onReceivedClientList field clients).Needs
      (max 9 (entriesReach field (field 8).toNat 9)) := by
  unfold onReceivedClientList
  refine (needs_bind (needs_readHeaderSize field)
    (k := max 9 (entriesReach field (field 8).toNat 9)) ?_).of_eq (by omega)
  rw [value_readHeaderSize field hid]
  refine needs_bind (needs_octetAt field 8) ?_
  refine (needs_bind (needs_readClients field 6 (field 8).toNat 3 _) (needs_pure _)).of_eq ?_
  exact Nat.max_zero _

/-- The client data are what is behind the entry, if they are passed on. -/
theorem passCapabilities_spec (hid : clientIDOf field = cmeClientID) (data dataIndex : Nat)
    (entry : ClientEntry) :
    (∃ k ≤ 5, (passCapabilities field size clients data dataIndex entry).Needs k) ∧
      ∀ passed ∈
        (passCapabilities field size clients data dataIndex entry).value.handled.passedSize,
        passed = (size : Int) - 6 - dataIndex := by
  unfold passCapabilities
  split
  · refine ⟨⟨5, Nat.le_refl 5, (needs_bind (needs_readClientDataSize field size)
      (needs_pure _)).of_eq rfl⟩, fun passed hpassed => ?_⟩
    have hvalue : passed = (size : Int) - (readHeaderSize field).value - dataIndex :=
      (Option.mem_some_iff.1 hpassed).symm
    rw [hvalue, value_readHeaderSize field hid]
    rfl
  · exact ⟨⟨0, Nat.zero_le 5, needs_pure _⟩, fun passed hpassed => (nomatch hpassed)⟩

theorem onReceivedExtraCapabilities_spec (hid : clientIDOf field = cmeClientID) :
    (onReceivedExtraCapabilities field size clients).Needs
        (9 + entryOctets (field 8 &&& 0x7f)) ∧
      ∀ passed ∈ (onReceivedExtraCapabilities field size clients).value.handled.passedSize,
        passed = (size : Int) - (9 + entryOctets (field 8 &&& 0x7f) : Nat) := by
  have hspec := passCapabilities_spec field size clients hid 6
    (3 + entryOctets (field 8 &&& 0x7f)) (readEntry field (field 8 &&& 0x7f) 9).value
  rcases hspec with ⟨⟨k, hk, hneeds⟩, hpassed⟩
  have hheader := value_readHeaderSize field hid
  constructor
  · unfold onReceivedExtraCapabilities
    refine (needs_bind (needs_readHeaderSize field)
      (k := max (8 + 1 + entryOctets (field 8 &&& 0x7f)) k) ?_).of_eq (by omega)
    rw [hheader]
    exact needs_entry field 8 (fun octet entry =>
      passCapabilities field size clients 6 (3 + entryOctets (octet &&& 0x7f)) entry) hneeds
  · intro passed h
    unfold onReceivedExtraCapabilities at h
    rw [value_bind, hheader] at h
    have hsize := hpassed passed h
    omega

/-- The message of a frame for the client 0, behind its second octet. -/
theorem onReceivedCME_spec {message : Traced Reaction} {command : Handled} {k : Nat}
    (hmessage : message.Needs k) (hcommand : command.passedSize = none) :
    (onReceivedCME field clients 6 message command).Needs
        (if field 7 = 0x00 then max 8 k else 8) ∧
      ∀ passed ∈ (onReceivedCME field clients 6 message command).value.handled.passedSize,
        field 7 = 0x00 ∧ passed ∈ message.value.handled.passedSize := by
  unfold onReceivedCME
  by_cases hzero : field 7 = 0x00
  · have hsecond : (octetAt field (6 + 1)).value = 0x00 := hzero
    rw [if_pos hzero]
    constructor
    · refine needs_bind (needs_octetAt field 7) ?_
      rw [hsecond, if_pos rfl]
      exact hmessage
    · intro passed h
      rw [value_bind, hsecond, if_pos rfl] at h
      exact ⟨hzero, h⟩
  · have hsecond : (octetAt field (6 + 1)).value ≠ 0x00 := hzero
    rw [if_neg hzero]
    constructor
    · refine (needs_bind (needs_octetAt field 7) (k := 0) ?_).of_eq rfl
      rw [if_neg hsecond]
      split
      · exact needs_pure _
      · exact needs_pure _
    · intro passed h
      rw [value_bind, if_neg hsecond] at h
      split at h
      · rw [value_pure, hcommand] at h
        exact (nomatch h)
      · exact (nomatch h)

/-- A frame for the client 0. -/
theorem onReceivedCMEMessage_spec (hid : clientIDOf field = cmeClientID) :
    (onReceivedCMEMessage field size clients).Needs (cmeReach field) ∧
      ∀ passed ∈ (onReceivedCMEMessage field size clients).value.handled.passedSize,
        passed = (size : Int) - cmeReach field := by
  have hheader := value_readHeaderSize field hid
  rcases onReceivedExtraCapabilities_spec field size clients hid with ⟨hneeds, hpassed⟩
  have hlist := @onReceivedCME_spec field clients _ .sendClientList _
    (needs_onReceivedClientList field clients hid) rfl
  have hcapabilities := @onReceivedCME_spec field clients _ .sendExtraCapabilities _
    hneeds rfl
  unfold onReceivedCMEMessage cmeReach
  by_cases hone : field 6 = 0x01
  · have hfirst : (octetAt field 6).value = 0x01 := hone
    rw [if_pos hone]
    constructor
    · refine (needs_bind (needs_readHeaderSize field) (k := max 7 (if field 7 = 0x00 then
        max 8 (max 9 (entriesReach field (field 8).toNat 9)) else 8)) ?_).of_eq ?_
      · rw [hheader]
        refine needs_bind (needs_octetAt field 6) ?_
        rw [if_pos hfirst]
        exact hlist.1
      · split
        · omega
        · rfl
    · intro passed h
      rw [value_bind, hheader, value_bind, if_pos hfirst] at h
      exact (nomatch (hlist.2 passed h).2)
  · have hfirst : (octetAt field 6).value ≠ 0x01 := hone
    rw [if_neg hone]
    by_cases htwo : field 6 = 0x02
    · have hsecond : (octetAt field 6).value = 0x02 := htwo
      rw [if_pos htwo]
      constructor
      · refine (needs_bind (needs_readHeaderSize field) (k := max 7 (if field 7 = 0x00 then
          max 8 (9 + entryOctets (field 8 &&& 0x7f)) else 8)) ?_).of_eq ?_
        · rw [hheader]
          refine needs_bind (needs_octetAt field 6) ?_
          rw [if_neg hfirst, if_pos hsecond]
          exact hcapabilities.1
        · split
          · omega
          · rfl
      · intro passed h
        rw [value_bind, hheader, value_bind, if_neg hfirst, if_pos hsecond] at h
        rcases hcapabilities.2 passed h with ⟨hzero, h⟩
        rw [if_pos hzero]
        exact hpassed passed h
    · have hsecond : (octetAt field 6).value ≠ 0x02 := htwo
      rw [if_neg htwo]
      constructor
      · refine (needs_bind (needs_readHeaderSize field) (k := 7) ?_).of_eq rfl
        rw [hheader]
        refine (needs_bind (needs_octetAt field 6) (k := 0) ?_).of_eq rfl
        rw [if_neg hfirst, if_neg hsecond]
        exact needs_pure _
      · intro passed h
        rw [value_bind, hheader, value_bind, if_neg hfirst, if_neg hsecond] at h
        exact (nomatch h)

/-- A frame: how far the handler reads, and the size of what it passes on. -/
theorem onReceivedFrame_spec :
    ∃ k, (onReceivedFrame field size clients).Needs k ∧
      (k ≤ size ∧ (∀ passed ∈ (onReceivedFrame field size clients).value.handled.passedSize,
        0 ≤ passed) ↔ fieldReach field clients ≤ size) := by
  unfold onReceivedFrame fieldReach
  by_cases hdestination : word field 0 ≠ broadcast
  · have hvalue : (wordAt field 0).value ≠ broadcast := hdestination
    rw [if_pos hdestination]
    refine ⟨2, (needs_bind (needs_wordAt field 0) (k := 0) ?_).of_eq rfl, ?_⟩
    · rw [if_pos hvalue]
      exact needs_pure _
    · rw [value_bind, if_pos hvalue]
      exact and_iff_left fun passed h => (nomatch h)
  · have hvalue : ¬(wordAt field 0).value ≠ broadcast := hdestination
    rw [if_neg hdestination]
    by_cases hcme : clientIDOf field = cmeClientID
    · have hid : (readClientID field).value = cmeClientID := hcme
      rcases onReceivedCMEMessage_spec field size clients hcme with ⟨hneeds, hpassed⟩
      rw [if_pos hcme]
      have hlong : 7 ≤ cmeReach field := by
        unfold cmeReach
        split
        · split
          · omega
          · decide
        · split
          · split
            · omega
            · decide
          · exact Nat.le_refl 7
      refine ⟨cmeReach field, (needs_bind (needs_wordAt field 0) (k := max 5 (cmeReach field))
        ?_).of_eq (by omega), ?_⟩
      · rw [if_neg hvalue]
        refine needs_bind (needs_readClientID field) ?_
        rw [if_pos hid]
        exact hneeds
      · rw [value_bind, if_neg hvalue, value_bind, if_pos hid]
        refine and_iff_left_of_imp fun hsize passed h => ?_
        rw [hpassed passed h]
        omega
    · have hid : (readClientID field).value ≠ cmeClientID := hcme
      have hread : (readClientID field).value = clientIDOf field := rfl
      rcases needs_findClient field rfl clients with ⟨hfind, hfound⟩
      rw [if_neg hcme]
      have hheader (id : UInt8) : headerSizeOf id = 6 ∨ headerSizeOf id = 7 ∨
          headerSizeOf id = 11 := by
        unfold headerSizeOf
        split
        · exact Or.inl rfl
        · split
          · exact Or.inr (Or.inl rfl)
          · exact Or.inr (Or.inr rfl)
      refine ⟨max 5 (findReach field (clientIDOf field) clients), ?_⟩
      -- What is read of a client that is found has been read already, or is in the header.
      cases hclient : (findClient field (clientIDOf field) clients).value with
      | none =>
          rw [hclient, Option.isSome_none] at hfound
          rw [if_neg (fun h => Bool.false_ne_true (hfound.2 h)), Nat.max_zero]
          constructor
          · refine (needs_bind (needs_wordAt field 0) (k := max 5 (findReach field
              (clientIDOf field) clients)) ?_).of_eq (by omega)
            rw [if_neg hvalue]
            refine needs_bind (needs_readClientID field) ?_
            rw [if_neg hid, hread]
            refine (needs_bind hfind (k := 0) ?_).of_eq (Nat.max_zero _)
            rw [hclient]
            exact needs_pure _
          · rw [value_bind, if_neg hvalue, value_bind, if_neg hid, hread, value_bind, hclient]
            exact and_iff_left fun passed h => (nomatch h)
      | some client =>
          rw [hclient, Option.isSome_some] at hfound
          rw [if_pos (hfound.1 rfl)]
          constructor
          · refine (needs_bind (needs_wordAt field 0) (k := max 5 (findReach field
              (clientIDOf field) clients)) ?_).of_eq (by omega)
            rw [if_neg hvalue]
            refine (needs_bind (needs_readClientID field) (k := max (findReach field
              (clientIDOf field) clients) 5) ?_).of_eq (by omega)
            rw [if_neg hid, hread]
            refine needs_bind hfind ?_
            rw [hclient]
            exact (needs_bind (needs_readClientDataSize field size) (needs_pure _)).of_eq rfl
          · rw [value_bind, if_neg hvalue, value_bind, if_neg hid, hread, value_bind, hclient]
            have hsize : (∀ passed ∈ (some ((size : Int) - headerSizeOf (clientIDOf field))),
                0 ≤ passed) ↔ headerSizeOf (clientIDOf field) ≤ size := by
              simp only [Option.mem_some_iff, forall_eq']
              omega
            refine (and_congr_right fun _ => hsize).trans ?_
            omega

end Messages

/-- When the handler stays inside. -/
theorem handledInside_iff (f : Q922Frame) (clients : List LocalClient) :
    f.HandledInside clients ↔ f.reach clients ≤ f.informationFieldSize := by
  rcases onReceivedFrame_spec f.fieldOctets f.informationFieldSize clients with
    ⟨k, hneeds, hiff⟩
  unfold Q922Frame.HandledInside Q922Frame.reach
  rw [← hiff]
  exact and_congr_left fun _ => hneeds _

/-- A frame of four octets is accepted, and its address is half behind its end. -/
theorem shortFrame_outside : ∃ f, decodeAnnexQ (H224Frame.blank 0).toQ922Frame
    [0x00, 0x61, 0x03, 0x00] = some f ∧ ¬f.HandledInside [] := by
  refine ⟨_, rfl, fun h => ?_⟩
  rcases h.1 ⟨1, 1⟩ (List.mem_cons_of_mem _ List.mem_cons_self) with hzero | hinside
  · exact Nat.one_ne_zero hzero
  · exact absurd hinside.2 (by decide)

end H224

end CryptoOpal
