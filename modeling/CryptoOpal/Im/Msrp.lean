import CryptoOpal.Url.Legacy
import Mathlib.Data.List.Chain
import Mathlib.Data.List.DropRight

/-!
# MSRP Messages

A text is cut into chunks of 1024 octets. Each chunk is sent as a message of lines, and the
receiver reads the messages line by line.

The sender writes the content type without the colon of a field. The receiver reads a body only
when there is a content type among the fields, and does not take a line without a colon for one.
So it takes each message for one without a body, and the text for the next message. A field that
is written in the text is of no use: the receiver reads fields up to an empty line, and there is
an empty line in front of the text.

## Main definitions

* `sendSEND`: The sender.
* `readLine`, `readMessage`: The receiver.
* `Consecutive`: The ranges of the chunks.
* `Guarded`: A line with a content type has an empty line in front of it.

## Theorems

* `chunks_consecutive`: The ranges are what they should be.
* `receive_clean`, `receive_render`: What is in the bodies.
* `returned_iff`: When the text is returned.
-/

namespace CryptoOpal

namespace Im

open Lib (Octets)

open Url (Vars isSpace sameCaseless toLower decimal asUnsigned)

/-- An octet that is printed. -/
def plain (l : Octets) : Bool := l.all fun c => decide (32 ≤ c ∧ c ≠ 127)

/-- A text without control characters. -/
abbrev PlainText := { l : Octets // plain l = true }

/-- `CRLF`. -/
def crlf : Octets := [13, 10]

/-- `MSRP`. -/
def msrp : Octets := [77, 83, 82, 80]

/-- `MSRPCommands[SEND]`. -/
def sendTag : Octets := [83, 69, 78, 68]

/-- `MSRPCommands[REPORT]`. -/
def reportTag : Octets := [82, 69, 80, 79, 82, 84]

/-- `To-Path: `. -/
def toPath : Octets := [84, 111, 45, 80, 97, 116, 104, 58, 32]

/-- `From-Path: `. -/
def fromPath : Octets := [70, 114, 111, 109, 45, 80, 97, 116, 104, 58, 32]

/-- `Message-ID`. -/
def messageIdTag : Octets := [77, 101, 115, 115, 97, 103, 101, 45, 73, 68]

/-- `Success-Report`. -/
def successReportTag : Octets := [83, 117, 99, 99, 101, 115, 115, 45, 82, 101, 112, 111, 114, 116]

/-- `yes`. -/
def yes : Octets := [121, 101, 115]

/-- `Byte-Range`. -/
def byteRangeTag : Octets := [66, 121, 116, 101, 45, 82, 97, 110, 103, 101]

/-- `ContentTypeTag`, `Content-Type`. -/
def contentTypeTag : Octets := [67, 111, 110, 116, 101, 110, 116, 45, 84, 121, 112, 101]

/-- The dashes in front of the identifier at the end of a message. -/
def dashes : Octets := [45, 45, 45, 45, 45, 45, 45]

/-- What a text is sent with. The identifiers are printed GUIDs, the URLs are printed ones, and a
    content type has no colon. -/
structure Session where
  fromUrl : PlainText
  toUrl : PlainText
  contentType : PlainText
  noColon : contentType.val.all (fun c => decide (c ≠ 58)) = true
  messageId : PlainText
  chunkId : Nat → PlainText

/-- A chunk. -/
structure Chunk where
  chunkId : PlainText
  rangeFrom : Nat
  rangeTo : Nat

/-- `MaximumMessageLength`. -/
def maximumMessageLength : Nat := 1024

/-- `Chunk`. -/
def Chunk.make (id : PlainText) (start len : Nat) : Chunk := ⟨id, start + 1, start + len⟩

/-- A field as it is printed. -/
def fieldLine (field : Octets × Octets) : Octets := field.1 ++ [58, 32] ++ field.2

/-- `PrintContents`, of fields without an end of a line in them. -/
def printContents (fields : List (Octets × Octets)) : Octets :=
  fields.flatMap fun field => fieldLine field ++ crlf

/-- `operator&`, where the first text does not end with a blank. -/
def joined (a b : Octets) : Octets :=
  if b = [] then a else if b.head? = some 32 then a ++ b else a ++ 32 :: b

section Sender

variable (s : Session) (text : Octets)

/-- The loop that breaks the text into chunks. -/
def chunkLoop (length offs k : Nat) : List Chunk :=
  if _h : maximumMessageLength < length - offs then
    Chunk.make (s.chunkId k) offs maximumMessageLength ::
      chunkLoop length (offs + maximumMessageLength) (k + 1)
  else [Chunk.make (s.chunkId k) offs (length - offs)]
termination_by length - offs
decreasing_by
  have hpos : 0 < maximumMessageLength := Nat.zero_lt_succ 1023
  omega

/-- The chunks of a text. -/
def chunks (length : Nat) : List Chunk :=
  if length = 0 then [Chunk.make (s.chunkId 0) 0 0] else chunkLoop s length 0 0

/-- The fields of a chunk. -/
def fieldsOf (c : Chunk) : List (Octets × Octets) :=
  (messageIdTag, s.messageId.val) ::
    if text.length ≠ 0 then
      [(successReportTag, yes),
        (byteRangeTag,
          decimal c.rangeFrom ++ 45 :: decimal c.rangeTo ++ 47 :: decimal text.length)]
    else []

/-- The part of the text that a chunk has. -/
def piece (c : Chunk) : Octets :=
  (text.drop (c.rangeFrom - 1)).take (c.rangeTo - c.rangeFrom + 1)

/-- The end of a message. -/
def endLine (c : Chunk) (isLast : Bool) : Octets :=
  dashes ++ c.chunkId.val ++ [if isLast then 36 else 43]

/-- The body of a chunk. -/
def bodyOf (c : Chunk) (isLast : Bool) : Octets :=
  (if text.length ≠ 0 then
    joined contentTypeTag s.contentType.val ++ crlf ++ crlf ++ piece text c ++ crlf
  else []) ++ (endLine c isLast ++ crlf)

/-- `SendChunk`. -/
def sendChunk (c : Chunk) (mime : List (Octets × Octets)) (body : Octets) : Octets :=
  msrp ++ 32 :: c.chunkId.val ++ 32 :: sendTag ++ crlf ++ toPath ++ s.toUrl.val ++ crlf ++
    fromPath ++ s.fromUrl.val ++ crlf ++ printContents mime ++ body

/-- The loop that sends the chunks. -/
def sendChunks : List Chunk → Octets
  | [] => []
  | c :: rest =>
    sendChunk s c (fieldsOf s text c) (bodyOf s text c rest.isEmpty) ++ sendChunks rest

/-- `SendSEND`: the octets that are sent. -/
def sendSEND : Octets := sendChunks s text (chunks s text.length)

end Sender

section Receiver

/-- What is behind a carriage return that ends a line. -/
def afterReturn : Octets → Octets
  | 10 :: rest => rest
  | 13 :: 10 :: rest => rest
  | [13] => [13, 255] -- `UnRead(-1)`
  | rest => rest

/-- The loop of `ReadLine` without continuations. -/
def readLoop (line : Octets) : Octets → Option (Octets × Octets)
  | [] => none
  | c :: rest =>
    if c = 8 ∨ c = 127 then readLoop line.dropLast rest
    else if c = 13 then some (line, afterReturn rest)
    else if c = 10 then some (line, rest)
    else readLoop (line ++ [c]) rest

/-- `ReadLine`: the line, and what is left to be read. -/
def readLine (s : Octets) : Option (Octets × Octets) := readLoop [] s

/-- The first line that is not empty. -/
def readStart : Nat → Octets → Option (Octets × Octets)
  | 0, _ => none
  | fuel + 1, s =>
    (readLine s).bind fun read => if read.1 = [] then readStart fuel read.2 else some read

/-- `Tokenise` with runs of separators. -/
def tokenise (str : Octets) (sep : UInt8) : List Octets :=
  if str = [] then []
  else
    ((Url.tokens sep str).dropLast.filter fun token => !token.isEmpty) ++
      [(Url.tokens sep str).getLastD []]

/-- `Trim`. -/
def trim (s : Octets) : Octets := (s.dropWhile isSpace).rdropWhile isSpace

/-- The name of a field, in front of the colon. -/
def fieldName (line : Octets) : Octets := trim (line.takeWhile fun c => decide (c ≠ 58))

/-- The value of a field. -/
def fieldValue (line : Octets) : Octets :=
  trim ((line.dropWhile fun c => decide (c ≠ 58)).drop 1)

/-- `AddMIME`. -/
def addMime (mime : Vars) (line : Octets) : Vars :=
  if line.any (fun c => decide (c = 58)) then
    match mime.at? (fieldName line) with
    | none => mime.setAt (fieldName line) (fieldValue line)
    | some old => mime.setAt (fieldName line) (old ++ 10 :: fieldValue line)
  else mime

/-- `Contains`, of the content type. -/
def containsType (mime : Vars) : Bool := mime.any fun entry => sameCaseless entry.1 contentTypeTag

/-- The loop for the fields, up to an empty line or the end of the message. -/
def readFields (terminator : Octets) : Nat → Vars → Octets → Vars × Octets
  | 0, mime, s => (mime, s)
  | fuel + 1, mime, s =>
    match readLine s with
    | none => (mime, [])
    | some read =>
      if read.1 = [] ∨ terminator.isPrefixOf read.1 = true then (mime, read.2)
      else readFields terminator fuel (addMime mime read.1) read.2

/-- The loop for the body. -/
def readBody (terminator : Octets) : Nat → Octets → Octets → Option (Octets × Octets)
  | 0, _, _ => none
  | fuel + 1, body, s =>
    (readLine s).bind fun read =>
      if terminator.isPrefixOf read.1 = true then some (body, read.2)
      else if 10240 < body.length + 1 + read.1.length then none
      else readBody terminator fuel (body ++ read.1) read.2

/-- The command of a message, a number for a response. -/
def commandOf (token : Octets) : Nat :=
  if sameCaseless token sendTag then 0
  else if sameCaseless token reportTag then 1
  else if 2 < asUnsigned token then asUnsigned token
  else 2

/-- What `ReadMessage` returns. -/
structure Received where
  command : Nat
  chunkId : Octets
  mime : Vars
  body : Octets

/-- `ReadMessage`. A line takes at least one octet, but for the one that is put back at the end. -/
def readMessage (s : Octets) : Option (Received × Octets) :=
  (readStart (s.length + 2) s).bind fun start =>
    match tokenise start.1 32 with
    | first :: chunkId :: token :: _ =>
      if sameCaseless first msrp then
        if commandOf token = 0 ∧
            containsType (readFields (dashes ++ chunkId) (s.length + 2) [] start.2).1 = true then
          (readBody (dashes ++ chunkId) (s.length + 2) []
            (readFields (dashes ++ chunkId) (s.length + 2) [] start.2).2).map fun read =>
              (⟨commandOf token, chunkId,
                (readFields (dashes ++ chunkId) (s.length + 2) [] start.2).1, read.1⟩, read.2)
        else
          some (⟨commandOf token, chunkId,
            (readFields (dashes ++ chunkId) (s.length + 2) [] start.2).1, []⟩,
            (readFields (dashes ++ chunkId) (s.length + 2) [] start.2).2)
      else none
    | _ => none

/-- The bodies that a number of calls returns, up to the first that fails. -/
def receive : Nat → Octets → List Octets
  | 0, _ => []
  | calls + 1, s =>
    match readMessage s with
    | none => []
    | some read => read.1.body :: receive calls read.2

end Receiver

/-- The ranges of the chunks follow one another, from a place to the length. -/
def Consecutive : Nat → List Chunk → Nat → Prop
  | next, [], length => next = length + 1
  | next, c :: rest, length =>
    c.rangeFrom = next ∧ next ≤ c.rangeTo + 1 ∧ Consecutive (c.rangeTo + 1) rest length

theorem chunkLoop_consecutive (s : Session) (length offs k : Nat) (h : offs ≤ length) :
    Consecutive (offs + 1) (chunkLoop s length offs k) length := by
  induction offs, k using chunkLoop.induct length with
  | case1 offs k hlong ih =>
      rw [chunkLoop, dif_pos hlong]
      exact ⟨rfl, Nat.succ_le_succ (Nat.le_add_right _ _), ih (by omega)⟩
  | case2 offs k hshort =>
      rw [chunkLoop, dif_neg hshort]
      refine ⟨rfl, Nat.succ_le_succ (Nat.le_add_right _ _), ?_⟩
      exact congrArg (· + 1) (Nat.add_sub_of_le h)

theorem chunks_consecutive (s : Session) (length : Nat) :
    Consecutive 1 (chunks s length) length := by
  rw [chunks]
  split
  next hzero =>
    rw [hzero]
    exact ⟨rfl, Nat.le_refl 1, rfl⟩
  next => exact chunkLoop_consecutive s length 0 0 (Nat.zero_le _)

/-- There is no end of a line in a text. -/
def Clean (l : Octets) : Prop := ∀ c ∈ l, c ≠ 13 ∧ c ≠ 10

theorem clean_nil : Clean [] := fun _ h => absurd h List.not_mem_nil

theorem readLoop_clean (s : Octets) : ∀ line read, Clean line →
    readLoop line s = some read → Clean read.1 := by
  induction s with
  | nil => exact fun line read _ h => by cases h
  | cons c rest ih =>
      intro line read hline h
      rw [readLoop] at h
      -- A line only grows by octets that do not end it.
      by_cases herase : c = 8 ∨ c = 127
      · rw [if_pos herase] at h
        exact ih _ _ (fun x hx => hline x ((List.dropLast_sublist line).subset hx)) h
      · rw [if_neg herase] at h
        by_cases hreturn : c = 13
        · rw [if_pos hreturn] at h
          rwa [← Option.some.inj h]
        · rw [if_neg hreturn] at h
          by_cases hfeed : c = 10
          · rw [if_pos hfeed] at h
            rwa [← Option.some.inj h]
          · rw [if_neg hfeed] at h
            refine ih _ _ (fun x hx => ?_) h
            rcases List.mem_append.mp hx with hx | hx
            · exact hline x hx
            · rw [List.mem_singleton.mp hx]
              exact ⟨hreturn, hfeed⟩

theorem readBody_clean (terminator : Octets) (fuel : Nat) : ∀ body s read, Clean body →
    readBody terminator fuel body s = some read → Clean read.1 := by
  induction fuel with
  | zero => exact fun body s read _ h => by cases h
  | succ fuel ih =>
      intro body s read hbody h
      rw [readBody] at h
      obtain ⟨line, hline, h⟩ := Option.bind_eq_some_iff.mp h
      have hclean := readLoop_clean s [] line clean_nil hline
      split at h
      · rwa [← Option.some.inj h]
      · split at h
        · cases h
        · refine ih _ _ _ (fun x hx => ?_) h
          exact (List.mem_append.mp hx).elim (hbody x) (hclean x)

theorem readMessage_clean {s : Octets} {read : Received × Octets}
    (h : readMessage s = some read) : Clean read.1.body := by
  rw [readMessage] at h
  obtain ⟨start, -, h⟩ := Option.bind_eq_some_iff.mp h
  split at h
  · split at h
    · split at h
      · obtain ⟨body, hbody, rfl⟩ := Option.map_eq_some_iff.mp h
        exact readBody_clean _ _ _ _ _ clean_nil hbody
      · rw [← Option.some.inj h]
        exact clean_nil
    · cases h
  · cases h

/-- The lines that are read have lost their ends. -/
theorem receive_clean (calls : Nat) : ∀ s, Clean (receive calls s).flatten := by
  induction calls with
  | zero => exact fun _ => clean_nil
  | succ calls ih =>
      intro s x hx
      rw [receive] at hx
      split at hx
      next => cases hx
      next read hread =>
        rw [List.flatten_cons] at hx
        exact (List.mem_append.mp hx).elim (readMessage_clean hread x) (ih _ x)

section Lines

variable {l line : Octets} {ls : List Octets}

/-- What is left of a line in which octets are taken back. -/
def typed (line : Octets) : Octets → Octets
  | [] => line
  | c :: rest => typed (if c = 8 ∨ c = 127 then line.dropLast else line ++ [c]) rest

/-- The lines with their ends. -/
def render (ls : List Octets) : Octets := ls.flatMap fun l => l ++ crlf

theorem render_cons (l : Octets) (ls : List Octets) :
    render (l :: ls) = l ++ 13 :: 10 :: render ls := by
  rw [render, List.flatMap_cons, crlf, List.append_assoc]
  rfl

theorem render_append (a b : List Octets) : render (a ++ b) = render a ++ render b :=
  List.flatMap_append

theorem length_render (ls : List Octets) : ls.length ≤ (render ls).length := by
  induction ls with
  | nil => exact Nat.le_refl 0
  | cons l ls ih =>
      rw [render_cons, List.length_append, List.length_cons, List.length_cons, List.length_cons]
      omega

theorem readLoop_line (rest : Octets) (l : Octets) : ∀ line, Clean l →
    readLoop line (l ++ 13 :: 10 :: rest) = some (typed line l, rest) := by
  induction l with
  | nil => exact fun line _ => rfl
  | cons c l ih =>
      intro line hclean
      have hc := hclean c List.mem_cons_self
      have hl : Clean l := fun x hx => hclean x (List.mem_cons_of_mem c hx)
      rw [List.cons_append, readLoop, typed]
      by_cases herase : c = 8 ∨ c = 127
      · rw [if_pos herase, if_pos herase]
        exact ih _ hl
      · rw [if_neg herase, if_neg herase, if_neg hc.1, if_neg hc.2]
        exact ih _ hl

theorem readLine_render (hclean : Clean l) :
    readLine (render (l :: ls)) = some (typed [] l, render ls) := by
  rw [render_cons]
  exact readLoop_line (render ls) l [] hclean

/-- A line that is a field with the content type. -/
def Named (line : Octets) : Prop :=
  line.any (fun c => decide (c = 58)) = true ∧ sameCaseless (fieldName line) contentTypeTag = true

/-- A line with a content type has an empty line in front of it. -/
def Guarded (ls : List Octets) : Prop := ls.IsChain fun a b => Named b → a = []

theorem setAt_contains {mime : Vars} {key data : Octets}
    (h : containsType (mime.setAt key data) = true) :
    containsType mime = true ∨ sameCaseless key contentTypeTag = true := by
  rw [containsType, Vars.setAt, List.any_eq_true] at h
  obtain ⟨entry, hmem, hsame⟩ := h
  split at hmem
  · obtain ⟨old, hold, rfl⟩ := List.mem_map.mp hmem
    refine .inl (List.any_eq_true.mpr ⟨old, hold, ?_⟩)
    split at hsame <;> exact hsame
  -- Either it was there or its key is the name.
  · rcases List.mem_append.mp hmem with hold | hnew
    · exact .inl (List.any_eq_true.mpr ⟨entry, hold, hsame⟩)
    · rw [List.mem_singleton.mp hnew] at hsame
      exact .inr hsame

theorem addMime_contains {mime : Vars} (h : containsType (addMime mime line) = true) :
    containsType mime = true ∨ Named line := by
  rw [addMime] at h
  split at h
  next hcolon =>
    split at h <;> exact (setAt_contains h).imp_right fun hname => ⟨hcolon, hname⟩
  next => exact .inl h

/-- The fields up to an empty line do not have a content type, when the line in front of them is
    not empty. -/
theorem readFields_render (terminator : Octets) (fuel : Nat) : ∀ mime ls before,
    ls.length < fuel → (∀ l ∈ ls, Clean l) → before ≠ [] →
    Guarded (before :: ls.map (typed [])) → containsType mime = false →
    containsType (readFields terminator fuel mime (render ls)).1 = false ∧
      ∃ rest, (readFields terminator fuel mime (render ls)).2 = render rest ∧ rest <:+ ls := by
  induction fuel with
  | zero => exact fun mime ls before h => absurd h (Nat.not_lt_zero _)
  | succ fuel ih =>
      intro mime ls before hfuel hclean hbefore hguard hmime
      rw [readFields]
      cases ls with
      | nil => exact ⟨hmime, [], rfl, List.suffix_refl []⟩
      | cons l ls =>
          rw [readLine_render (hclean l List.mem_cons_self)]
          dsimp only
          rw [List.map_cons, Guarded, List.isChain_cons_cons] at hguard
          by_cases hend : typed [] l = [] ∨ terminator.isPrefixOf (typed [] l) = true
          · rw [if_pos hend]
            exact ⟨hmime, ls, rfl, List.suffix_cons l ls⟩
          · rw [if_neg hend]
            -- A content type would have an empty line in front of it, where the loop has ended.
            have hquiet : containsType (addMime mime (typed [] l)) = false := by
              refine Bool.eq_false_iff.mpr fun hcontains => ?_
              rcases addMime_contains hcontains with hold | hnamed
              · exact Bool.false_ne_true (hmime.symm.trans hold)
              · exact hbefore (hguard.1 hnamed)
            have hrun := ih _ ls (typed [] l) (Nat.lt_of_succ_lt_succ hfuel)
              (fun x hx => hclean x (List.mem_cons_of_mem l hx)) (fun h => hend (.inl h))
              hguard.2 hquiet
            obtain ⟨rest, hrest, hsuffix⟩ := hrun.2
            exact ⟨hrun.1, rest, hrest, hsuffix.trans (List.suffix_cons l ls)⟩

theorem readStart_render (fuel : Nat) : ∀ ls read, (∀ l ∈ ls, Clean l) →
    Guarded (ls.map (typed [])) → readStart fuel (render ls) = some read →
    read.1 ≠ [] ∧ ∃ rest, read.2 = render rest ∧ rest <:+ ls ∧
      Guarded (read.1 :: rest.map (typed [])) := by
  induction fuel with
  | zero => exact fun ls read _ _ h => by cases h
  | succ fuel ih =>
      intro ls read hclean hguard h
      rw [readStart] at h
      cases ls with
      | nil => cases h
      | cons l ls =>
          rw [readLine_render (hclean l List.mem_cons_self), Option.bind_some] at h
          -- Empty lines are skipped, which only takes guards away.
          by_cases hempty : typed [] l = []
          · rw [if_pos hempty] at h
            obtain ⟨hread, rest, hrest, hsuffix, hguard⟩ := ih ls read
              (fun x hx => hclean x (List.mem_cons_of_mem l hx)) hguard.tail h
            exact ⟨hread, rest, hrest, hsuffix.trans (List.suffix_cons l ls), hguard⟩
          · rw [if_neg hempty] at h
            rw [← Option.some.inj h]
            exact ⟨hempty, ls, rfl, List.suffix_cons l ls, hguard⟩

theorem readMessage_render {read : Received × Octets} (hclean : ∀ l ∈ ls, Clean l)
    (hguard : Guarded (ls.map (typed []))) (h : readMessage (render ls) = some read) :
    read.1.body = [] ∧ ∃ rest, read.2 = render rest ∧ rest <:+ ls := by
  rw [readMessage] at h
  obtain ⟨start, hstart, h⟩ := Option.bind_eq_some_iff.mp h
  obtain ⟨hne, behind, hbehind, hsuffix, hguard⟩ := readStart_render _ ls start hclean hguard hstart
  split at h
  next first chunkId token more _ =>
    have hfields := readFields_render (dashes ++ chunkId) ((render ls).length + 2) [] behind start.1
      (by
        have hle := hsuffix.length_le
        have hlength := length_render ls
        omega)
      (fun l hl => hclean l (hsuffix.subset hl)) hne hguard rfl
    rw [← hbehind] at hfields
    split at h
    -- Without a content type the body is not looked for.
    · rw [if_neg fun hcond => Bool.false_ne_true (hfields.1.symm.trans hcond.2)] at h
      rw [← Option.some.inj h]
      obtain ⟨rest, hrest, hrests⟩ := hfields.2
      exact ⟨rfl, rest, hrest, hrests.trans hsuffix⟩
    · cases h
  next => cases h

/-- All bodies are empty. -/
theorem receive_render (calls : Nat) : ∀ ls, (∀ l ∈ ls, Clean l) → Guarded (ls.map (typed [])) →
    (receive calls (render ls)).flatten = [] := by
  induction calls with
  | zero => exact fun ls _ _ => rfl
  | succ calls ih =>
      intro ls hclean hguard
      rw [receive]
      split
      next => rfl
      next read hread =>
        obtain ⟨hbody, rest, hrest, hsuffix⟩ := readMessage_render hclean hguard hread
        rw [List.flatten_cons, hbody, List.nil_append, hrest]
        exact ih rest (fun l hl => hclean l (hsuffix.subset hl))
          (hguard.suffix (hsuffix.map (typed [])))

end Lines

section Messages

variable {l a b : Octets} {c : UInt8}

theorem plain_append (ha : plain a = true) (hb : plain b = true) : plain (a ++ b) = true := by
  rw [plain, List.all_append, Bool.and_eq_true]
  exact ⟨ha, hb⟩

theorem plain_mem (h : plain l = true) (hc : c ∈ l) : 32 ≤ c ∧ c ≠ 127 :=
  of_decide_eq_true (List.all_eq_true.mp h c hc)

theorem clean_of_plain (h : plain l = true) : Clean l := by
  intro c hc
  have hle := (plain_mem h hc).1
  constructor <;> rintro rfl <;> exact absurd hle (by decide)

theorem typed_plain (l : Octets) : ∀ line, plain l = true → typed line l = line ++ l := by
  induction l with
  | nil => exact fun line _ => (List.append_nil line).symm
  | cons c l ih =>
      intro line h
      have hc := plain_mem h List.mem_cons_self
      have hkeep : ¬ (c = 8 ∨ c = 127) := by
        rintro (rfl | rfl)
        · exact absurd hc.1 (by decide)
        · exact hc.2 rfl
      rw [plain, List.all_cons, Bool.and_eq_true] at h
      rw [typed, if_neg hkeep, ih _ h.2, List.append_assoc]
      rfl

theorem plain_decimal (n : Nat) : plain (decimal n) = true := by
  refine List.all_eq_true.mpr fun c hc => decide_eq_true ?_
  obtain ⟨d, hd, rfl⟩ := List.mem_map.mp hc
  have hdigit := Nat.isDigit_of_mem_toDigits (by decide) (by decide) hd
  rw [Char.isDigit, Bool.and_eq_true, decide_eq_true_iff, decide_eq_true_iff] at hdigit
  have hle : d.toNat ≤ 57 := hdigit.2
  have hge : 48 ≤ d.toNat := hdigit.1
  have hval : (Url.ascii d).toNat = d.toNat := by
    rw [Url.ascii, UInt8.toNat_ofNat', Nat.mod_eq_of_lt (by omega)]
  constructor
  · rw [UInt8.le_iff_toNat_le, hval]
    exact Nat.le_trans (by decide) hge
  · intro heq
    rw [heq] at hval
    exact absurd (hval.symm ▸ hle : (127 : UInt8).toNat ≤ 57) (by decide)

/-- The name of a field begins with the octet that the line begins with. -/
theorem not_named_head (hspace : isSpace c = false) (hc : toLower c ≠ 99) : ¬ Named (c :: l) := by
  intro ⟨_, h⟩
  have hsame : (fieldName (c :: l)).map toLower = contentTypeTag.map toLower := of_decide_eq_true h
  rw [fieldName, trim] at hsame
  by_cases hcolon : c = 58
  · rw [hcolon, List.takeWhile_cons_of_neg (by decide)] at hsame
    exact absurd hsame (by decide)
  · have hnotspace : ¬ isSpace c = true := fun h => Bool.false_ne_true (hspace.symm.trans h)
    rw [List.takeWhile_cons_of_pos (p := fun c => decide (c ≠ 58)) (decide_eq_true hcolon),
      List.dropWhile_cons_of_neg hnotspace] at hsame
    -- Blanks are taken off at the other end only.
    obtain ⟨tail, htail⟩ := List.rdropWhile_prefix isSpace
      (c :: l.takeWhile fun c => decide (c ≠ 58))
    cases hname : List.rdropWhile isSpace (c :: l.takeWhile fun c => decide (c ≠ 58)) with
    | nil =>
        rw [hname] at hsame
        exact absurd hsame (by decide)
    | cons d name =>
        rw [hname] at hsame htail
        rw [(List.cons.inj htail).1] at hsame
        exact hc (List.cons.inj hsame).1

theorem not_named_nil : ¬ Named [] := fun h => Bool.false_ne_true h.1

/-- A line that is no field with a content type. -/
def Quiet (l : Octets) : Prop := Clean l ∧ ¬ Named (typed [] l)

theorem quiet_of_head (h : plain (c :: l) = true) (hspace : isSpace c = false)
    (hc : toLower c ≠ 99) : Quiet (c :: l) :=
  ⟨clean_of_plain h, by
    rw [typed_plain _ [] h]
    exact not_named_head hspace hc⟩

/-- Lines that may be behind any other line. -/
def Closed (ls : List Octets) : Prop :=
  (∀ l ∈ ls, Clean l) ∧ ∀ before, Guarded (before :: ls.map (typed []))

theorem closed_nil : Closed [] :=
  ⟨fun _ h => absurd h List.not_mem_nil, fun _ => List.isChain_singleton _⟩

theorem closed_cons {ls : List Octets} (hl : Quiet l) (h : Closed ls) : Closed (l :: ls) :=
  ⟨List.forall_mem_cons.mpr ⟨hl.1, h.1⟩,
    fun _ => List.isChain_cons_cons.mpr ⟨fun hnamed => absurd hnamed hl.2, h.2 _⟩⟩

theorem closed_append {ls rest : List Octets} (hquiet : ∀ l ∈ ls, Quiet l) (h : Closed rest) :
    Closed (ls ++ rest) := by
  induction ls with
  | nil => exact h
  | cons l ls ih =>
      rw [List.forall_mem_cons] at hquiet
      exact closed_cons hquiet.1 (ih hquiet.2)

/-- A text behind an empty line may be what it likes. -/
theorem closed_guarded {ls : List Octets} (hl : Clean l) (h : Closed ls) :
    Closed ([] :: l :: ls) := by
  refine ⟨List.forall_mem_cons.mpr ⟨clean_nil, List.forall_mem_cons.mpr ⟨hl, h.1⟩⟩,
    fun before => ?_⟩
  exact List.isChain_cons_cons.mpr ⟨fun hnamed => absurd hnamed not_named_nil,
    List.isChain_cons_cons.mpr ⟨fun _ => rfl, h.2 _⟩⟩

variable (s : Session) (text : Octets)

/-- The lines in front of the content type. -/
def headLines (c : Chunk) : List Octets :=
  (msrp ++ 32 :: c.chunkId.val ++ 32 :: sendTag) :: (toPath ++ s.toUrl.val) ::
    (fromPath ++ s.fromUrl.val) :: (fieldsOf s text c).map fieldLine

/-- The lines of a message. -/
def messageLines (c : Chunk) (isLast : Bool) : List Octets :=
  headLines s text c ++
    ((if text.length ≠ 0 then
      [joined contentTypeTag s.contentType.val, [], piece text c]
    else []) ++ [endLine c isLast])

/-- The lines of all messages. -/
def allLines : List Chunk → List Octets
  | [] => []
  | c :: rest => messageLines s text c rest.isEmpty ++ allLines rest

theorem sendChunk_render (c : Chunk) (isLast : Bool) :
    sendChunk s c (fieldsOf s text c) (bodyOf s text c isLast) =
      render (messageLines s text c isLast) := by
  have hfields : printContents (fieldsOf s text c) = render ((fieldsOf s text c).map fieldLine) := by
    rw [printContents, render, List.flatMap_map]
  rw [sendChunk, hfields, messageLines, headLines, render_append, render_append, bodyOf]
  by_cases htext : text.length ≠ 0
  · rw [if_pos htext, if_pos htext]
    simp [render, crlf]
  · rw [if_neg htext, if_neg htext]
    simp [render, crlf]

theorem sendChunks_render (cs : List Chunk) :
    sendChunks s text cs = render (allLines s text cs) := by
  induction cs with
  | nil => rfl
  | cons c rest ih =>
      rw [sendChunks, allLines, render_append, sendChunk_render, ih]

theorem quiet_field {field : Octets × Octets} (hname : plain field.1 = true)
    (hvalue : plain field.2 = true) {c : UInt8} {name : Octets} (hfirst : field.1 = c :: name)
    (hspace : isSpace c = false) (hc : toLower c ≠ 99) : Quiet (fieldLine field) := by
  have hplain : plain (fieldLine field) = true := plain_append (plain_append hname rfl) hvalue
  rw [fieldLine, hfirst] at hplain ⊢
  exact quiet_of_head hplain hspace hc

theorem quiet_headLines (c : Chunk) : ∀ l ∈ headLines s text c, Quiet l := by
  refine List.forall_mem_cons.mpr ⟨?_, List.forall_mem_cons.mpr ⟨?_, List.forall_mem_cons.mpr
    ⟨?_, List.forall_mem_map.mpr (List.forall_mem_cons.mpr ⟨?_, ?_⟩)⟩⟩⟩
  · exact quiet_of_head (plain_append (a := msrp ++ 32 :: c.chunkId.val)
      (plain_append rfl (plain_append (a := [32]) rfl c.chunkId.property)) rfl) rfl (by decide)
  · exact quiet_of_head (plain_append (a := toPath) rfl s.toUrl.property) rfl (by decide)
  · exact quiet_of_head (plain_append (a := fromPath) rfl s.fromUrl.property) rfl (by decide)
  · exact quiet_field rfl s.messageId.property rfl rfl (by decide)
  · split
    · refine List.forall_mem_cons.mpr ⟨quiet_field rfl rfl rfl rfl (by decide),
        List.forall_mem_singleton.mpr (quiet_field rfl ?_ rfl rfl (by decide))⟩
      have hfrom := plain_append (plain_decimal c.rangeFrom)
        (plain_append (a := [45]) rfl (plain_decimal c.rangeTo))
      exact plain_append hfrom (plain_append (a := [47]) rfl (plain_decimal text.length))
    · exact fun field hfield => by cases hfield

/-- The content type is not a field: it has no colon. -/
theorem quiet_contentType : Quiet (joined contentTypeTag s.contentType.val) := by
  have hsplit : ∃ mid, plain mid = true ∧ mid.all (fun c => decide (c ≠ 58)) = true ∧
      joined contentTypeTag s.contentType.val = contentTypeTag ++ (mid ++ s.contentType.val) := by
    rw [joined]
    split
    next hnil => exact ⟨[], rfl, rfl, by rw [hnil]; rfl⟩
    next =>
      split
      · exact ⟨[], rfl, rfl, rfl⟩
      · exact ⟨[32], rfl, rfl, rfl⟩
  obtain ⟨mid, hmid, hcolon, hjoined⟩ := hsplit
  have hplain : plain (joined contentTypeTag s.contentType.val) = true := by
    rw [hjoined]
    exact plain_append rfl (plain_append hmid s.contentType.property)
  have hnone : (joined contentTypeTag s.contentType.val).all (fun c => decide (c ≠ 58)) = true := by
    rw [hjoined, List.all_append, List.all_append, hcolon, s.noColon]
    rfl
  refine ⟨clean_of_plain hplain, fun hnamed => ?_⟩
  rw [typed_plain _ [] hplain, List.nil_append] at hnamed
  obtain ⟨c, hc, hcolon⟩ := List.any_eq_true.mp hnamed.1
  exact of_decide_eq_true (List.all_eq_true.mp hnone c hc) (of_decide_eq_true hcolon)

theorem quiet_endLine (c : Chunk) (isLast : Bool) : Quiet (endLine c isLast) := by
  refine quiet_of_head (plain_append (a := dashes ++ c.chunkId.val)
    (plain_append rfl c.chunkId.property) ?_) rfl (by decide)
  cases isLast <;> rfl

/-- The lines of the messages of a text without an end of a line. -/
theorem closed_allLines (hclean : Clean text) (cs : List Chunk) : Closed (allLines s text cs) := by
  induction cs with
  | nil => exact closed_nil
  | cons c rest ih =>
      rw [allLines, messageLines, List.append_assoc]
      refine closed_append (quiet_headLines s text c) ?_
      -- The part of the text, if there is one, is the line behind the empty one.
      rw [List.append_assoc]
      have hend : Closed ([endLine c rest.isEmpty] ++ allLines s text rest) :=
        closed_cons (quiet_endLine c rest.isEmpty) ih
      split
      · have hpiece : Clean (piece text c) := fun x hx =>
          hclean x (List.mem_of_mem_drop (List.mem_of_mem_take hx))
        exact closed_cons (quiet_contentType s) (closed_guarded hpiece hend)
      · exact hend

/-- Without an end of a line in the text all bodies are empty. -/
theorem receive_sendSEND (hclean : Clean text) (calls : Nat) :
    (receive calls (sendSEND s text)).flatten = [] := by
  have hclosed := closed_allLines s text hclean (chunks s text.length)
  rw [sendSEND, sendChunks_render]
  exact receive_render calls _ hclosed.1 (hclosed.2 []).tail

/-- The chunks have consecutive ranges, and their bodies are the text, if and only if the text is
    empty, whatever the number of messages that are read. -/
theorem returned_iff (calls : Nat) :
    Consecutive 1 (chunks s text.length) text.length ∧
      (receive calls (sendSEND s text)).flatten = text ↔ text = [] := by
  rw [and_iff_right (chunks_consecutive s text.length)]
  constructor
  · intro h
    -- What is returned has no end of a line, so that a text with one does not come back.
    have hclean : Clean text := h ▸ receive_clean calls (sendSEND s text)
    exact h.symm.trans (receive_sendSEND s text hclean calls)
  · rintro rfl
    exact receive_sendSEND s [] clean_nil calls

/-- A session with short texts. -/
def shortSession : Session :=
  ⟨⟨[97], rfl⟩, ⟨[98], rfl⟩, ⟨[116, 47, 112], rfl⟩, rfl, ⟨[49], rfl⟩, fun _ => ⟨[50], rfl⟩⟩

/-- One letter that is sent as one chunk is lost. -/
theorem not_returned : ¬ (Consecutive 1 (chunks shortSession 1) 1 ∧
    (receive 1 (sendSEND shortSession [72])).flatten = [72]) := by
  have hclean : Clean [72] := clean_of_plain rfl
  intro h
  have hempty := receive_sendSEND shortSession [72] hclean 1
  exact List.cons_ne_nil _ _ (h.2.symm.trans hempty)

end Messages

end Im

end CryptoOpal
