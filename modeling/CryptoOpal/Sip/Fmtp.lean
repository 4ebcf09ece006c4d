import CryptoOpal.Sip.MediaOption
import Mathlib.Data.List.Forall2

/-!
# Format Parameters of SDP

The options of a media format that have a name for it are printed as parameters, joined by
semicolons. What equals the default of the option is left out. A string of several tokens is
printed as several parameters of one name.

Reading starts from the defaults. A string is appended to what the option has, so a parameter
of its own never replaces the default. A parameter without a value counts as a boolean, so an
empty string becomes `1`. And since a format is read twice when a session description is
decoded, a string without a default would be there twice.

## Main definitions

* `MediaOption`: An option with its names, default and value.
* `getFMTP`: Printing.
* `setMediaFormatOptions`: Reading.
* `postDecode`: Reading for a format of the list, and again.
* `Regained`: When an option comes back with its value.

## Theorems

* `printOptions_eq`: What is printed are parameters.
* `parseFrom_joined`: Parameters are read one by one.
* `foldl_applyParameter`: Each option is given those of its name.
* `Regained.foldl_append`: They are the value.
* `fmtp_round_trip`: Printing and reading, once or in `postDecode`.
-/

namespace CryptoOpal

namespace Sip

open Lib (Octets)

/-- How two options are merged. -/
inductive MergeType where
  | noMerge
  | minMerge
  | maxMerge
  | equalMerge
  | notEqualMerge
  | alwaysMerge
  | customMerge
  | intersectionMerge
  deriving DecidableEq

/-- An option of a media format. -/
structure MediaOption where
  name : Text
  fmtpName : Text
  fmtpDefault : Text
  merge : MergeType
  value : OptionValue
  deriving DecidableEq

/-- The name that stands for all parameters. -/
def fmtpWord : Text := ['F', 'M', 'T', 'P']

section Printing

/-- `GetOptionString`. -/
def optionString (options : List MediaOption) (name : Text) : Text :=
  match options.find? (fun o => caseless o.name name) with
  | some ⟨_, _, _, _, .string value⟩ => value
  | _ => []

/-- A parameter for each value that is not the default. -/
def MediaOption.printValues (o : MediaOption) (strm : Text) (values : List Text) : Text :=
  values.foldl (fun strm value =>
    if value ≠ o.fmtpDefault then
      (if strm = [] then [] else strm ++ [';']) ++ (o.fmtpName ++ '=' :: value)
    else strm) strm

/-- The parameters of an option. -/
def MediaOption.printOn (o : MediaOption) (strm : Text) : Text :=
  if o.value.asString = [] ∧ o.value.asString ≠ o.fmtpDefault then strm ++ o.fmtpName
  else o.printValues strm (tokenise o.value.asString)

/-- The loop of `GetFMTP`. -/
def printOptions (fmtp : Text) : List Text → Text → List MediaOption → Text
  | _, strm, [] => if strm = [] then fmtp else strm
  | used, strm, o :: options =>
    if caseless o.fmtpName fmtpWord then o.value.asString
    else if o.fmtpName ≠ [] ∧ o.fmtpName ∉ used then
      printOptions fmtp (o.fmtpName :: used) (o.printOn strm) options
    else printOptions fmtp used strm options

/-- `GetFMTP`. -/
def getFMTP (fmtp : Text) (options : List MediaOption) : Text :=
  if optionString options fmtpWord ≠ [] then optionString options fmtpWord
  else printOptions fmtp [] [] options

end Printing

section Reading

variable (literal : Text → Text)

/-- The options with their defaults. -/
def fillDefaults (options : List MediaOption) : List MediaOption :=
  options.map (fun o =>
    if o.fmtpDefault ≠ [] then { o with value := o.value.fromString literal o.fmtpDefault }
    else o)

/-- A value that is read. A string is appended to the one before. -/
def appendValue (old : OptionValue) (value : Text) : OptionValue :=
  match old with
  | .string previous =>
    OptionValue.fromString literal old (if previous = [] then value else previous ++ ';' :: value)
  | _ => OptionValue.fromString literal old value

/-- An option for which a value is read. -/
def MediaOption.append (o : MediaOption) (value : Text) : MediaOption :=
  { o with value := appendValue literal o.value value }

/-- The option of a parameter: the one with that name, if it has it as its parameter's name
too, or else the first one that has. -/
def findParameter (options : List MediaOption) (key : Text) : Option Nat :=
  match options.findIdx? (fun o => caseless o.name key) with
  | none => options.findIdx? (fun o => caseless key o.fmtpName)
  | some i =>
    if (options[i]?).any (fun o => caseless key o.fmtpName) then some i
    else (options.findIdx? (fun o => caseless key o.fmtpName)).or (some i)

/-- Is this option one of octets? -/
def isOctets : OptionValue → Bool
  | .octets _ => true
  | _ => false

/-- An empty value stands for true. -/
def orTrue (value : Text) : Text := if value = [] then ['1'] else value

/-- One round of the loop of `SetMediaFormatOptions`: the options, and where to go on. -/
def parseItem (sep : Char) (odd : Bool) (rest : Text) (options : List MediaOption) :
    List MediaOption × Option Text :=
  let item := rest.takeWhile (· ≠ sep)
  let behind := rest.dropWhile (· ≠ sep)
  let next := if behind = [] then none else some behind.tail
  let key := trim (item.takeWhile (· ≠ '='))
  let assigned := item.dropWhile (· ≠ '=')
  if key = [] then (options, next)
  else
    match findParameter options key with
    | none => (options, next)
    | some i =>
      if (options[i]?).any (fun o => isOctets o.value) then
        (options.modify i
          (·.append literal (if odd then trim assigned.tail else assigned.tail)), next)
      else if ' ' ∈ assigned then
        -- Mixed separators: the parameter ends at the blank.
        (options.modify i (·.append literal (orTrue (trim (assigned.tail.takeWhile (· ≠ ' '))))),
          some ((assigned.dropWhile (· ≠ ' ')).tail ++ behind))
      else
        (options.modify i (·.append literal (orTrue (trim assigned.tail))), next)

/-- The loop of `SetMediaFormatOptions`, for so many rounds. -/
def parseFrom (sep : Char) (odd : Bool) : Nat → Text → List MediaOption → List MediaOption
  | 0, _, options => options
  | n + 1, rest, options =>
    match parseItem literal sep odd rest options with
    | (options', none) => options'
    | (options', some rest') => parseFrom sep odd n rest' options'

/-- `SetMediaFormatOptions`. -/
def setMediaFormatOptions (fmtp : Text) (options : List MediaOption) : List MediaOption :=
  let filled := fillDefaults literal options
  match filled.find? (fun o => caseless o.name fmtpWord) with
  | some ⟨name, _, _, _, .string _⟩ =>
    filled.map (fun o => if o.name = name then { o with value := .string fmtp } else o)
  | _ =>
    match filled.findIdx? (fun o => caseless o.fmtpName fmtpWord) with
    | some i => filled.modify i (fun o => { o with value := o.value.fromString literal fmtp })
    | none =>
      if fmtp = [] then filled
      else
        parseFrom literal (if ';' ∈ fmtp then ';' else ' ') (fmtp.length % 2 ≠ 0)
          (fmtp.length + 1) fmtp filled

/-- `ValidateMerge` of an option. -/
def MediaOption.validateMerge (o other : MediaOption) : Bool :=
  match o.merge with
  | .equalMerge => o.value = other.value
  | .notEqualMerge => o.value ≠ other.value
  | _ => true

/-- `ValidateMerge` of a media format. -/
def validateMerge (format adjusted : List MediaOption) : Bool :=
  format.all (fun o =>
    (adjusted.find? (fun other => caseless other.name o.name)).all o.validateMerge)

/-- `PostDecode` with the format that is found for the payload type, up to the part of a
plug-in. -/
def postDecode (fmtp : Text) (format : List MediaOption) : Option (List MediaOption) :=
  let adjusted := setMediaFormatOptions literal fmtp format
  if validateMerge format adjusted then some (setMediaFormatOptions literal fmtp adjusted)
  else none

end Reading

section Names

theorem caseless_trans {a b c : Text} (h : caseless a b = true) (h' : caseless a c = true) :
    caseless b c = true := by
  have hab := of_decide_eq_true h
  have hac := of_decide_eq_true h'
  exact decide_eq_true (hab.symm.trans hac)

theorem caseless_nil {a : Text} (h : caseless a [] = true) : a = [] := by
  have hnil : a.map Char.toLower = [] := of_decide_eq_true h
  exact List.map_eq_nil_iff.1 hnil

/-- Names that differ, other than empty ones. -/
def Distinct (names : List Text) : Prop :=
  names.Pairwise (fun a b => a ≠ [] → caseless a b = false)

instance (names : List Text) : Decidable (Distinct names) := inferInstanceAs
  (Decidable (names.Pairwise _))

/-- The names of the options of a media format. -/
structure WellNamed (options : List MediaOption) : Prop where
  distinct : Distinct (options.map (·.fmtpName))
  clean : ∀ o ∈ options, Clean o.fmtpName
  notWhole : ∀ o ∈ options,
    caseless o.fmtpName fmtpWord = false ∧ caseless o.name fmtpWord = false

end Names

section Parameters

/-- A parameter. -/
def paramText (p : Text × Text) : Text := p.1 ++ '=' :: p.2

/-- Parameters with semicolons between them. -/
def joined : List (Text × Text) → Text
  | [] => []
  | p :: ps => paramText p ++ (if ps = [] then [] else ';' :: joined ps)

/-- The values that are printed for an option. -/
def MediaOption.tokens (o : MediaOption) : List Text :=
  (tokenise o.value.asString).filter (· ≠ o.fmtpDefault)

/-- The parameters that are printed for an option. -/
def MediaOption.parameters (o : MediaOption) : List (Text × Text) :=
  if o.fmtpName = [] then [] else o.tokens.map (fun value => (o.fmtpName, value))

theorem joined_eq_nil {ps : List (Text × Text)} : joined ps = [] ↔ ps = [] := by
  cases ps with
  | nil => exact iff_of_true rfl rfl
  | cons p ps => simp [joined, paramText]

theorem joined_concat (ps : List (Text × Text)) (p : Text × Text) :
    joined (ps ++ [p]) = (if joined ps = [] then [] else joined ps ++ [';']) ++ paramText p := by
  induction ps with
  | nil => simp [joined]
  | cons q ps ih =>
      have hne : ps ++ [p] ≠ [] := List.append_ne_nil_of_right_ne_nil _ (List.cons_ne_nil _ _)
      have hcons : joined (q :: ps) ≠ [] :=
        fun h => absurd (joined_eq_nil.1 h) (List.cons_ne_nil _ _)
      rw [if_neg hcons]
      show paramText q ++ (if ps ++ [p] = [] then [] else ';' :: joined (ps ++ [p])) =
        paramText q ++ (if ps = [] then [] else ';' :: joined ps) ++ [';'] ++ paramText p
      rw [if_neg hne, ih]
      by_cases hps : ps = []
      · simp [hps, joined]
      · rw [if_neg hps, if_neg (mt joined_eq_nil.1 hps)]
        simp

theorem printValues_joined (o : MediaOption) (ps : List (Text × Text)) (values : List Text) :
    o.printValues (joined ps) values =
      joined (ps ++
        (values.filter (· ≠ o.fmtpDefault)).map (fun value => (o.fmtpName, value))) := by
  unfold MediaOption.printValues
  induction values generalizing ps with
  | nil => simp
  | cons value values ih =>
      rw [List.foldl_cons]
      -- The default is skipped; any other value is appended.
      by_cases hdefault : value = o.fmtpDefault
      · rw [if_neg (fun h => h hdefault), ih, List.filter_cons_of_neg (by simpa using hdefault)]
      · rw [if_pos hdefault, List.filter_cons_of_pos (by simpa using hdefault)]
        have hnext := joined_concat ps (o.fmtpName, value)
        unfold paramText at hnext
        rw [← hnext, ih, List.map_cons, List.append_assoc]
        rfl

/-- Nothing is printed without a value. -/
def MediaOption.Valued (o : MediaOption) : Prop :=
  o.value.asString = [] → o.fmtpDefault = []

/-- What is printed are parameters. -/
theorem printOptions_eq (options : List MediaOption) (used : List Text)
    (ps : List (Text × Text)) (hdistinct : Distinct (options.map (·.fmtpName)))
    (hwhole : ∀ o ∈ options, caseless o.fmtpName fmtpWord = false)
    (hvalued : ∀ o ∈ options, o.fmtpName ≠ [] → o.Valued)
    (hused : ∀ o ∈ options, o.fmtpName ≠ [] → o.fmtpName ∉ used) :
    printOptions [] used (joined ps) options = joined (ps ++ options.flatMap (·.parameters)) := by
  induction options generalizing used ps with
  | nil =>
      rw [printOptions, List.flatMap_nil, List.append_nil]
      split
      · rename_i h
        exact h.symm
      · rfl
  | cons o options ih =>
      rw [List.map_cons, Distinct, List.pairwise_cons] at hdistinct
      have hrest := fun used ps h => ih used ps hdistinct.2
        (fun x hx => hwhole x (List.mem_cons_of_mem _ hx))
        (fun x hx => hvalued x (List.mem_cons_of_mem _ hx)) h
      rw [printOptions, if_neg (by rw [hwhole o List.mem_cons_self]; decide), List.flatMap_cons,
        ← List.append_assoc]
      -- An option without a name for it is not printed.
      by_cases hname : o.fmtpName = []
      · rw [if_neg (fun h => h.1 hname), MediaOption.parameters, if_pos hname, List.append_nil]
        exact hrest used ps (fun x hx => hused x (List.mem_cons_of_mem _ hx))
      · rw [if_pos ⟨hname, hused o List.mem_cons_self hname⟩]
        have hvalue := hvalued o List.mem_cons_self hname
        have hprint : o.printOn (joined ps) = joined (ps ++ o.parameters) := by
          rw [MediaOption.printOn, if_neg (fun h => h.2 (h.1.trans (hvalue h.1).symm)),
            printValues_joined, MediaOption.parameters, if_neg hname]
          rfl
        rw [hprint]
        refine hrest _ _ (fun x hx hne hmem => ?_)
        -- No later option has this name.
        rcases List.mem_cons.1 hmem with heq | hmem
        · have hdiff := hdistinct.1 _ (List.mem_map_of_mem hx) hname
          rw [heq, caseless_refl] at hdiff
          exact absurd hdiff (by decide)
        · exact hused x (List.mem_cons_of_mem _ hx) hne hmem

theorem getFMTP_eq {options : List MediaOption} (h : WellNamed options)
    (hvalued : ∀ o ∈ options, o.fmtpName ≠ [] → o.Valued) :
    getFMTP [] options = joined (options.flatMap (·.parameters)) := by
  have hnone : options.find? (fun o => caseless o.name fmtpWord) = none := by
    rw [List.find?_eq_none]
    intro o ho
    rw [(h.notWhole o ho).2]
    decide
  have hwhole : optionString options fmtpWord = [] := by rw [optionString, hnone]
  rw [getFMTP, if_neg (fun hne => hne hwhole)]
  exact printOptions_eq options [] [] h.distinct (fun o ho => (h.notWhole o ho).1) hvalued
    (fun _ _ _ => List.not_mem_nil)

end Parameters

section Parsing

variable {literal : Text → Text} {options : List MediaOption}

theorem dropWhile_isSpace {t : Text} (h : Plain t) : t.dropWhile isSpace = t := by
  cases t with
  | nil => rfl
  | cons c t => exact List.dropWhile_cons_of_neg (by rw [(h c List.mem_cons_self).1]; decide)

theorem trim_plain {t : Text} (h : Plain t) : trim t = t := by
  rw [trim, dropWhile_isSpace h,
    dropWhile_isSpace (fun c hc => h c (List.mem_reverse.1 hc)), List.reverse_reverse]

/-- A parameter whose name and value are clean. -/
structure CleanParam (p : Text × Text) : Prop where
  key : Clean p.1
  key_ne : p.1 ≠ []
  value : Clean p.2
  value_ne : p.2 ≠ []

/-- What a parameter does to the options. -/
def applyParameter (literal : Text → Text) (options : List MediaOption) (p : Text × Text) :
    List MediaOption :=
  match findParameter options p.1 with
  | none => options
  | some i => options.modify i (·.append literal p.2)

/-- One round reads one parameter. -/
theorem parseItem_param {sep : Char} (hsep : sep = ';' ∨ sep = ' ') (odd : Bool) {p : Text × Text}
    (hp : CleanParam p) (behind : Text) (hbehind : ∀ c ∈ behind.head?, c = sep) :
    parseItem literal sep odd (paramText p ++ behind) options =
      (applyParameter literal options p, if behind = [] then none else some behind.tail) := by
  have hin : ∀ c ∈ paramText p, decide (c ≠ sep) = true := by
    intro c hc
    refine decide_eq_true ?_
    have hclean : Clean p.1 → Clean p.2 → c ≠ ';' ∧ c ≠ ' ' := by
      intro hkey hvalue
      rcases List.mem_append.1 hc with hc | hc
      · refine ⟨(hkey c hc).2.2.2, ?_⟩
        rintro rfl
        exact absurd (hkey _ hc).1 (by decide)
      · rcases List.mem_cons.1 hc with rfl | hc
        · exact ⟨by decide, by decide⟩
        · refine ⟨(hvalue c hc).2.2.2, ?_⟩
          rintro rfl
          exact absurd (hvalue _ hc).1 (by decide)
    rcases hsep with rfl | rfl
    · exact (hclean hp.key hp.value).1
    · exact (hclean hp.key hp.value).2
  -- The item ends where the parameter does.
  have htake : (paramText p ++ behind).takeWhile (· ≠ sep) = paramText p := by
    rw [List.takeWhile_append_of_pos hin]
    cases behind with
    | nil => rw [List.takeWhile_nil, List.append_nil]
    | cons c behind =>
        rw [hbehind c rfl, List.takeWhile_cons_of_neg (by simp), List.append_nil]
  have hdrop : (paramText p ++ behind).dropWhile (· ≠ sep) = behind := by
    rw [List.dropWhile_append_of_pos hin]
    cases behind with
    | nil => rfl
    | cons c behind => rw [hbehind c rfl, List.dropWhile_cons_of_neg (by simp)]
  have hkeyIn : ∀ c ∈ p.1, decide (c ≠ '=') = true :=
    fun c hc => decide_eq_true (hp.key c hc).2.2.1
  have hkey : (paramText p).takeWhile (· ≠ '=') = p.1 := by
    rw [paramText, List.takeWhile_append_of_pos hkeyIn, List.takeWhile_cons_of_neg (by simp),
      List.append_nil]
  have hassigned : (paramText p).dropWhile (· ≠ '=') = '=' :: p.2 := by
    rw [paramText, List.dropWhile_append_of_pos hkeyIn, List.dropWhile_cons_of_neg (by simp)]
  -- There is no blank, so the separators are not mixed.
  have hblank : ' ' ∉ '=' :: p.2 := by
    intro hmem
    rcases List.mem_cons.1 hmem with h | h
    · exact absurd h (by decide)
    · exact absurd (hp.value _ h).1 (by decide)
  unfold parseItem applyParameter
  simp only [htake, hdrop, hkey, hassigned, trim_plain hp.key.plain, if_neg hp.key_ne,
    List.tail_cons, trim_plain hp.value.plain, if_neg hblank, orTrue, if_neg hp.value_ne, ite_self]
  cases findParameter options p.1 with
  | none => rfl
  | some i => rfl

/-- Parameters are read one by one. -/
theorem parseFrom_joined {sep : Char} (hsep : sep = ';' ∨ sep = ' ') (odd : Bool)
    (ps : List (Text × Text)) (hclean : ∀ p ∈ ps, CleanParam p) (hne : ps ≠ [])
    (hone : sep = ' ' → ps.length = 1) (n : Nat) (hn : ps.length ≤ n) :
    parseFrom literal sep odd n (joined ps) options =
      ps.foldl (applyParameter literal) options := by
  induction ps generalizing options n with
  | nil => exact absurd rfl hne
  | cons p ps ih =>
      obtain ⟨m, rfl⟩ : ∃ m, n = m + 1 := ⟨n - 1, by rw [List.length_cons] at hn; omega⟩
      have hp := hclean p List.mem_cons_self
      rw [parseFrom, joined, List.foldl_cons]
      -- The last parameter, or one with a semicolon behind it.
      by_cases hps : ps = []
      · rw [if_pos hps, parseItem_param hsep odd hp [] (fun _ h => nomatch h), hps]
        rfl
      · have hsemi : sep = ';' := by
          rcases hsep with h | h
          · exact h
          · have := hone h
            rw [List.length_cons] at this
            exact absurd (List.length_eq_zero_iff.1 (by omega)) hps
        rw [if_neg hps, parseItem_param hsep odd hp (';' :: joined ps)
          (fun c h => (Option.some.inj h).symm.trans hsemi.symm)]
        refine ih (fun q hq => hclean q (List.mem_cons_of_mem _ hq)) hps (fun h => ?_) m
          (by rw [List.length_cons] at hn; omega)
        rw [hsemi] at h
        exact absurd h (by decide)

/-- The option that has the name is found. -/
theorem findParameter_spec {key : Text} {o : MediaOption} (ho : o ∈ options)
    (hkey : caseless key o.fmtpName = true) :
    ∃ i x, findParameter options key = some i ∧ options[i]? = some x ∧
      caseless key x.fmtpName = true := by
  obtain ⟨i, hi⟩ : ∃ i, options.findIdx? (fun o => caseless key o.fmtpName) = some i := by
    cases h : options.findIdx? (fun o => caseless key o.fmtpName) with
    | none =>
        rw [List.findIdx?_eq_none_iff] at h
        exact absurd (h o ho) (by rw [hkey]; decide)
    | some i => exact ⟨i, rfl⟩
  have hfound : ∃ x, options[i]? = some x ∧ caseless key x.fmtpName = true := by
    rw [List.findIdx?_eq_some_iff_getElem] at hi
    rcases hi with ⟨hlt, hx, -⟩
    exact ⟨options[i], List.getElem?_eq_getElem hlt, hx⟩
  rcases hfound with ⟨x, hx, hmatch⟩
  unfold findParameter
  -- An option of that name may be another one than that of the parameter.
  cases hname : options.findIdx? (fun o => caseless o.name key) with
  | none => exact ⟨i, x, hi, hx, hmatch⟩
  | some j =>
      simp only
      by_cases hj : (options[j]?).any (fun o => caseless key o.fmtpName) = true
      · rw [if_pos hj]
        cases hget : options[j]? with
        | none =>
            rw [hget] at hj
            exact nomatch hj
        | some y =>
            rw [hget] at hj
            exact ⟨j, y, rfl, hget, hj⟩
      · rw [if_neg hj, hi]
        exact ⟨i, x, rfl, hx, hmatch⟩

/-- A parameter changes the one option of its name. -/
theorem applyParameter_eq (hdistinct : Distinct (options.map (·.fmtpName))) {p : Text × Text}
    (hne : p.1 ≠ []) {o : MediaOption} (ho : o ∈ options)
    (hkey : caseless p.1 o.fmtpName = true) :
    applyParameter literal options p = options.map (fun o =>
      if caseless p.1 o.fmtpName then o.append literal p.2 else o) := by
  rcases findParameter_spec ho hkey with ⟨i, x, hfind, hx, hmatch⟩
  unfold applyParameter
  rw [hfind]
  apply List.ext_getElem?
  intro j
  rw [List.getElem?_modify, List.getElem?_map]
  by_cases hij : i = j
  · rw [← hij, hx]
    simp [hmatch]
  · cases hy : options[j]? with
    | none => simp
    | some y =>
        -- Another option has another name.
        have hother : caseless p.1 y.fmtpName = false := by
          by_contra htrue
          have hsame : caseless p.1 y.fmtpName = true := by simpa using htrue
          rcases List.getElem?_eq_some_iff.1 hx with ⟨hi, hxi⟩
          rcases List.getElem?_eq_some_iff.1 hy with ⟨hj, hyj⟩
          unfold Distinct at hdistinct
          rw [List.pairwise_map, List.pairwise_iff_getElem] at hdistinct
          rcases Nat.lt_or_gt_of_ne hij with hlt | hlt
          · have hdiff := hdistinct i j hi hj hlt
            rw [hxi, hyj, caseless_trans hmatch hsame] at hdiff
            refine absurd (hdiff (fun hnil => ?_)) (by decide)
            rw [hnil] at hmatch
            exact hne (caseless_nil hmatch)
          · have hdiff := hdistinct j i hj hi hlt
            rw [hxi, hyj, caseless_trans hsame hmatch] at hdiff
            refine absurd (hdiff (fun hnil => ?_)) (by decide)
            rw [hnil] at hsame
            exact hne (caseless_nil hsame)
        simp [hij, hother]

/-- Each option is given the values of its name. -/
theorem foldl_applyParameter (ps : List (Text × Text))
    (hdistinct : Distinct (options.map (·.fmtpName)))
    (hknown : ∀ p ∈ ps, p.1 ≠ [] ∧ ∃ name ∈ options.map (·.fmtpName), caseless p.1 name = true) :
    ps.foldl (applyParameter literal) options = options.map (fun o =>
      ((ps.filter (fun p => caseless p.1 o.fmtpName)).map (·.2)).foldl (·.append literal ·) o) := by
  induction ps generalizing options with
  | nil => simp
  | cons p ps ih =>
      rcases hknown p List.mem_cons_self with ⟨hne, name, hname, hkey⟩
      rcases List.mem_map.1 hname with ⟨o, ho, rfl⟩
      have hstep := @applyParameter_eq literal _ hdistinct _ hne _ ho hkey
      have hnames : (applyParameter literal options p).map (·.fmtpName) =
          options.map (·.fmtpName) := by
        rw [hstep, List.map_map]
        refine List.map_congr_left (fun x _ => ?_)
        show (if caseless p.1 x.fmtpName then _ else x : MediaOption).fmtpName = x.fmtpName
        split <;> rfl
      rw [List.foldl_cons, ih (by rw [hnames]; exact hdistinct)
        (by rw [hnames]; exact fun q hq => hknown q (List.mem_cons_of_mem _ hq)), hstep,
        List.map_map]
      refine List.map_congr_left (fun x _ => ?_)
      rw [Function.comp_apply]
      -- The first value is read by the options of its name only.
      by_cases hx : caseless p.1 x.fmtpName = true
      · rw [if_pos hx, List.filter_cons, if_pos hx]
        rfl
      · rw [if_neg hx, List.filter_cons, if_neg hx]

/-- The parameters of one name are those of the option. -/
theorem filter_parameters (hdistinct : Distinct (options.map (·.fmtpName))) {o : MediaOption}
    (ho : o ∈ options) (hne : o.fmtpName ≠ []) :
    (((options.flatMap (·.parameters)).filter (fun p => caseless p.1 o.fmtpName)).map (·.2)) =
      o.tokens := by
  have hown : ∀ x : MediaOption, (caseless x.fmtpName o.fmtpName = false ∨ x.fmtpName = []) →
      x.parameters.filter (fun p => caseless p.1 o.fmtpName) = [] := by
    intro x hx
    unfold MediaOption.parameters
    split
    · rfl
    · rename_i hname
      have hdiff := hx.resolve_right hname
      rw [List.filter_eq_nil_iff]
      intro p hp
      rcases List.mem_map.1 hp with ⟨v, -, rfl⟩
      simp [hdiff]
  induction options with
  | nil => exact nomatch ho
  | cons a options ih =>
      unfold Distinct at hdistinct
      rw [List.map_cons, List.pairwise_cons] at hdistinct
      rw [List.flatMap_cons, List.filter_append, List.map_append]
      -- The option's own parameters are all kept, the others' all dropped.
      rcases List.mem_cons.1 ho with rfl | hrest
      · have hself : o.parameters.filter (fun p => caseless p.1 o.fmtpName) = o.parameters := by
          rw [List.filter_eq_self]
          intro p hp
          unfold MediaOption.parameters at hp
          rw [if_neg hne] at hp
          rcases List.mem_map.1 hp with ⟨v, -, rfl⟩
          exact caseless_refl _
        have hothers : (options.flatMap (·.parameters)).filter
            (fun p => caseless p.1 o.fmtpName) = [] := by
          rw [List.filter_flatMap, List.flatMap_eq_nil_iff]
          intro x hx
          refine hown x (Or.inl ?_)
          have hdiff := hdistinct.1 _ (List.mem_map_of_mem hx) hne
          by_contra htrue
          have hsame : caseless x.fmtpName o.fmtpName = true := by simpa using htrue
          have hsame' : caseless o.fmtpName x.fmtpName = true :=
            caseless_trans hsame (caseless_refl _)
          rw [hdiff] at hsame'
          exact absurd hsame' (by decide)
        rw [hself, hothers, MediaOption.parameters, if_neg hne]
        simp
      · have hfirst : a.parameters.filter (fun p => caseless p.1 o.fmtpName) = [] := by
          refine hown a ?_
          by_cases ha : a.fmtpName = []
          · exact Or.inr ha
          · exact Or.inl (hdistinct.1 _ (List.mem_map_of_mem hrest) ha)
        rw [hfirst, List.map_nil, List.nil_append]
        exact ih hdistinct.2 hrest

end Parsing

section RoundTrip

variable {literal : Text → Text}

/-- Tokens are appended to a string with semicolons between them. -/
def appendTokens (base : Text) (tokens : List Text) : Text :=
  tokens.foldl (fun t token => if t = [] then token else t ++ ';' :: token) base

/-- What is printed for an option makes its value again, in a format whose option has another
one. Numbers are in their bounds. The name of an enumeration is the first one that begins with
it. Octets are not empty, or have no default and stay empty. A string is the default, or without
one what the other format has, followed by the tokens that are printed. -/
def RegainedFrom (fmtpDefault : Text) : OptionValue → OptionValue → Prop
  | .number type lo hi v, .number type' lo' hi' _ =>
    (type = type' ∧ lo = lo' ∧ hi = hi') ∧ type.InRange v ∧ lo ≤ v ∧ v ≤ hi
  | .enumeration names i, .enumeration names' _ =>
    names = names' ∧ ∃ e, names[i]? = some e ∧ e ≠ [] ∧ Clean e ∧
      names.findIdx? (fun x => caseless e (x.take e.length)) = some i
  | .octets b, .octets b' => b ≠ [] ∨ (fmtpDefault = [] ∧ b' = [])
  | .string s, .string s' =>
    (s = [] → fmtpDefault = []) ∧
      (∀ token ∈ tokenise s, token ≠ [] ∧ Clean token) ∧
      Plain (if fmtpDefault ≠ [] then fmtpDefault else s') ∧
      s = appendTokens (if fmtpDefault ≠ [] then fmtpDefault else s')
        ((tokenise s).filter (· ≠ fmtpDefault))
  | _, _ => False

/-- `RegainedFrom` for the value of an option. -/
def Regained (o : MediaOption) (other : OptionValue) : Prop :=
  RegainedFrom o.fmtpDefault o.value other

/-- An option with its default. -/
def MediaOption.filled (literal : Text → Text) (o : MediaOption) : MediaOption :=
  if o.fmtpDefault ≠ [] then { o with value := o.value.fromString literal o.fmtpDefault } else o

theorem tokenise_clean {t : Text} (h : Clean t) (hne : t ≠ []) : tokenise t = [t] := by
  have hsplit : t.splitOn ';' = [t] := by
    rw [List.splitOn]
    exact List.splitOnP_eq_singleton (fun c hc => by simpa using (h c hc).2.2.2)
  rw [tokenise, if_neg hne, hsplit]
  rfl

/-- One token is printed, or it is the default. -/
theorem tokens_clean {o : MediaOption} (h : Clean o.value.asString) (hne : o.value.asString ≠ []) :
    o.tokens = if o.value.asString ≠ o.fmtpDefault then [o.value.asString] else [] := by
  rw [MediaOption.tokens, tokenise_clean h hne, List.filter_cons, List.filter_nil]
  simp only [decide_eq_true_eq]

theorem clean_decimal (n : Nat) : Clean (decimal n) := by
  intro c hc
  have hdigit := isDigit_decimal hc
  refine ⟨not_isSpace_of_isDigit hdigit, ?_, ?_, ?_⟩
  all_goals
    rintro rfl
    exact absurd hdigit (by decide)

theorem clean_decimalInt (v : Int) : Clean (decimalInt v) := by
  unfold decimalInt
  split
  · intro c hc
    rcases List.mem_cons.1 hc with rfl | hc
    · exact ⟨by decide, by decide, by decide, by decide⟩
    · exact clean_decimal _ c hc
  · exact clean_decimal _

theorem decimalInt_ne_nil (v : Int) : decimalInt v ≠ [] := by
  unfold decimalInt
  split
  · exact List.cons_ne_nil _ _
  · exact decimal_ne_nil _

theorem clean_hexDigit {d : Nat} (h : d < 16) : isSpace (hexDigit d) = false ∧
    hexDigit d ≠ '"' ∧ hexDigit d ≠ '=' ∧ hexDigit d ≠ ';' := by
  interval_cases d <;> decide

theorem clean_hexText (b : Octets) : Clean (hexText b) := by
  intro c hc
  rcases List.mem_flatMap.1 hc with ⟨x, -, hx⟩
  have hlt := x.toNat_lt
  rcases List.mem_pair.1 hx with rfl | rfl
  · exact clean_hexDigit (by omega)
  · exact clean_hexDigit (by omega)

theorem hexText_ne_nil {b : Octets} (h : b ≠ []) : hexText b ≠ [] := by
  cases b with
  | nil => exact absurd rfl h
  | cons x b => exact List.cons_ne_nil _ _

theorem plain_join {s t : Text} (hs : Plain s) (ht : Plain t) : Plain (s ++ ';' :: t) := by
  intro c hc
  rcases List.mem_append.1 hc with hc | hc
  · exact hs c hc
  · rcases List.mem_cons.1 hc with rfl | hc
    · exact ⟨by decide, by decide⟩
    · exact ht c hc

/-- A string is read token by token. -/
theorem foldl_append_string (tokens : List Text) {o : MediaOption} {s : Text}
    (ho : o.value = .string s) (hs : Plain s) (htokens : ∀ token ∈ tokens, Clean token) :
    (tokens.foldl (·.append literal ·) o).value = .string (appendTokens s tokens) := by
  unfold appendTokens
  induction tokens generalizing o s with
  | nil => exact ho
  | cons token tokens ih =>
      have htoken := (htokens token List.mem_cons_self).plain
      have hplain : Plain (if s = [] then token else s ++ ';' :: token) := by
        split
        · exact htoken
        · exact plain_join hs htoken
      rw [List.foldl_cons, List.foldl_cons]
      refine ih ?_ hplain (fun x hx => htokens x (List.mem_cons_of_mem _ hx))
      show appendValue literal o.value token = _
      rw [ho]
      show OptionValue.string (readString literal _) = _
      rw [readString_plain literal hplain]

/-- A value that is not a string is read from its text, or the default is that text. -/
theorem foldl_append_text {o r : MediaOption} (hdefault : r.fmtpDefault = o.fmtpDefault)
    (hclean : Clean o.value.asString) (hne : o.value.asString ≠ [])
    (hread : r.value.fromString literal o.value.asString = o.value)
    (happend : appendValue literal (r.filled literal).value o.value.asString = o.value) :
    (o.tokens.foldl (·.append literal ·) (r.filled literal)).value = o.value := by
  rw [tokens_clean hclean hne]
  -- What is not printed is filled in, from the same text.
  by_cases hsame : o.value.asString = o.fmtpDefault
  · rw [if_neg (fun h => h hsame), List.foldl_nil, MediaOption.filled, if_pos (by
      rw [hdefault, ← hsame]
      exact hne), hdefault, ← hsame]
    exact hread
  · rw [if_pos hsame, List.foldl_cons, List.foldl_nil]
    exact happend

theorem fromString_number {type : NumberType} {lo hi v : Int} (w : Int) (hrange : type.InRange v)
    (hlo : lo ≤ v) (hhi : v ≤ hi) :
    (OptionValue.number type lo hi w).fromString literal (decimalInt v) = .number type lo hi v := by
  rw [OptionValue.fromString, readNumber_decimal hrange, Option.elim, if_pos ⟨hlo, hhi⟩]

/-- The tokens that are printed for an option are its value. -/
theorem Regained.foldl_append {o r : MediaOption} (hdefault : r.fmtpDefault = o.fmtpDefault)
    (h : Regained o r.value) :
    (o.tokens.foldl (·.append literal ·) (r.filled literal)).value = o.value := by
  rcases ho : o.value with ⟨type, lo, hi, v⟩ | ⟨names, i⟩ | s | b
  all_goals rcases hr : r.value with ⟨type', lo', hi', w⟩ | ⟨names', j⟩ | s' | b'
  all_goals
    rw [Regained, ho, hr] at h
    try exact h.elim
  · -- A number.
    rcases h with ⟨⟨rfl, rfl, rfl⟩, hrange, hlo, hhi⟩
    have hread := fun w => @fromString_number literal _ _ _ _ w hrange hlo hhi
    have htext : o.value.asString = decimalInt v := by rw [ho]; rfl
    rw [← ho]
    refine foldl_append_text hdefault (by rw [htext]; exact clean_decimalInt v)
      (by rw [htext]; exact decimalInt_ne_nil v) ?_ ?_
    · rw [htext, hr, hread, ho]
    · rw [htext, ho, MediaOption.filled]
      split
      · simp only [hr, OptionValue.fromString]
        exact hread _
      · rw [hr]
        exact hread _
  · -- A name.
    rcases h with ⟨rfl, e, hin, hne, hclean, hfirst⟩
    have hread : readEnum names e = i := readEnum_name hin hne hfirst
    have htext : o.value.asString = e := by
      rw [ho]
      exact enumText_eq hin
    rw [← ho]
    refine foldl_append_text hdefault (by rw [htext]; exact hclean) (by rw [htext]; exact hne) ?_ ?_
    · rw [htext, hr, OptionValue.fromString, hread, ho]
    · rw [htext, ho, MediaOption.filled]
      split
      · simp only [hr, OptionValue.fromString, appendValue, hread]
      · simp only [hr, OptionValue.fromString, appendValue, hread]
  · -- A string.
    rcases h with ⟨-, htokens, hplain, heq⟩
    have htext : o.value.asString = s := by rw [ho]; rfl
    have hfilled : (r.filled literal).value =
        .string (if o.fmtpDefault ≠ [] then o.fmtpDefault else s') := by
      rw [MediaOption.filled, hdefault]
      -- The string starts from the default, if there is one.
      by_cases hd : o.fmtpDefault = []
      · simp only [hd, ne_eq, not_true_eq_false, if_false]
        exact hr
      · rw [if_pos hd, if_pos hd]
        rw [if_pos hd] at hplain
        simp only [hr, OptionValue.fromString, readString_plain literal hplain]
    rw [MediaOption.tokens, htext, foldl_append_string _ hfilled hplain (fun token hmem =>
      (htokens token (List.mem_filter.1 hmem).1).2), ← heq]
  · -- Octets.
    have htext : o.value.asString = hexText b := by rw [ho]; rfl
    by_cases hb : b = []
    · -- There is no default, and nothing is printed.
      have hnone := h.resolve_left (fun hne => hne hb)
      have htokens : o.tokens = [] := by
        rw [MediaOption.tokens, htext, hb]
        rfl
      rw [htokens, List.foldl_nil, MediaOption.filled, hdefault, if_neg (fun h => h hnone.1), hr,
        hnone.2, hb]
    · rw [← ho]
      refine foldl_append_text hdefault (by rw [htext]; exact clean_hexText b)
        (by rw [htext]; exact hexText_ne_nil hb) ?_ ?_
      · rw [htext, hr, OptionValue.fromString, readOctets_hexText, ho]
      · rw [htext, ho, MediaOption.filled]
        split
        · simp only [hr, OptionValue.fromString, appendValue, readOctets_hexText]
        · simp only [hr, OptionValue.fromString, appendValue, readOctets_hexText]

/-- The tokens of a clean text are clean. -/
theorem tokens_of_clean {o : MediaOption} (h : Clean o.value.asString) :
    ∀ token ∈ o.tokens, token ≠ [] ∧ Clean token := by
  by_cases hne : o.value.asString = []
  · rw [MediaOption.tokens, hne]
    exact fun _ hmem => nomatch hmem
  · intro token hmem
    rw [tokens_clean h hne] at hmem
    split at hmem
    · rw [List.mem_singleton.1 hmem]
      exact ⟨hne, h⟩
    · exact nomatch hmem

/-- What is printed for the option is clean, and there is a value if there is a default. -/
theorem Regained.printed {o : MediaOption} {other : OptionValue} (h : Regained o other) :
    o.Valued ∧ ∀ token ∈ o.tokens, token ≠ [] ∧ Clean token := by
  rcases ho : o.value with ⟨type, lo, hi, v⟩ | ⟨names, i⟩ | s | b
  all_goals rcases hr : other with ⟨type', lo', hi', w⟩ | ⟨names', j⟩ | s' | b'
  all_goals
    rw [Regained, ho, hr] at h
    try exact h.elim
  · have htext : o.value.asString = decimalInt v := by rw [ho]; rfl
    refine ⟨fun hnil => ?_, tokens_of_clean (by rw [htext]; exact clean_decimalInt v)⟩
    rw [htext] at hnil
    exact absurd hnil (decimalInt_ne_nil v)
  · rcases h with ⟨-, e, hin, hne, hclean, -⟩
    have htext : o.value.asString = e := by
      rw [ho]
      exact enumText_eq hin
    refine ⟨fun hnil => ?_, tokens_of_clean (by rw [htext]; exact hclean)⟩
    rw [htext] at hnil
    exact absurd hnil hne
  · rcases h with ⟨hvalued, htokens, -, -⟩
    have htext : o.value.asString = s := by rw [ho]; rfl
    refine ⟨fun hnil => hvalued (htext.symm.trans hnil), fun token hmem => ?_⟩
    rw [MediaOption.tokens, htext] at hmem
    exact htokens token (List.mem_filter.1 hmem).1
  · have htext : o.value.asString = hexText b := by rw [ho]; rfl
    refine ⟨fun hnil => ?_, tokens_of_clean (by rw [htext]; exact clean_hexText b)⟩
    rw [htext] at hnil
    rcases h with hne | ⟨hd, -⟩
    · exact absurd hnil (hexText_ne_nil hne)
    · exact hd

theorem length_joined (ps : List (Text × Text)) : ps.length ≤ (joined ps).length := by
  induction ps with
  | nil => exact Nat.le_refl 0
  | cons p ps ih =>
      rw [joined, List.length_append, paramText, List.length_append, List.length_cons,
        List.length_cons]
      by_cases hps : ps = []
      · rw [hps, List.length_nil]
        omega
      · rw [if_neg hps, List.length_cons]
        omega

/-- Reading clean parameters gives each option those of its name, after its default. -/
theorem setMediaFormatOptions_joined {options : List MediaOption} (ps : List (Text × Text))
    (hdistinct : Distinct (options.map (·.fmtpName)))
    (hwhole : ∀ o ∈ options, caseless o.fmtpName fmtpWord = false ∧
      caseless o.name fmtpWord = false)
    (hclean : ∀ p ∈ ps, CleanParam p)
    (hknown : ∀ p ∈ ps, ∃ name ∈ options.map (·.fmtpName), caseless p.1 name = true) :
    setMediaFormatOptions literal (joined ps) options = options.map (fun o =>
      ((ps.filter (fun p => caseless p.1 o.fmtpName)).map (·.2)).foldl (·.append literal ·)
        (o.filled literal)) := by
  have hfilled : fillDefaults literal options = options.map (·.filled literal) := rfl
  -- The defaults change no names.
  have hkeep : ∀ o : MediaOption, (o.filled literal).fmtpName = o.fmtpName ∧
      (o.filled literal).name = o.name := by
    intro o
    unfold MediaOption.filled
    split
    · exact ⟨rfl, rfl⟩
    · exact ⟨rfl, rfl⟩
  have hnames : (options.map (·.filled literal)).map (·.fmtpName) = options.map (·.fmtpName) := by
    rw [List.map_map]
    exact List.map_congr_left (fun o _ => (hkeep o).1)
  have hfind : (options.map (·.filled literal)).find? (fun o => caseless o.name fmtpWord) =
      none := by
    rw [List.find?_eq_none]
    intro o ho
    rcases List.mem_map.1 ho with ⟨x, hx, rfl⟩
    rw [(hkeep x).2, (hwhole x hx).2]
    decide
  have hindex : (options.map (·.filled literal)).findIdx?
      (fun o => caseless o.fmtpName fmtpWord) = none := by
    rw [List.findIdx?_eq_none_iff]
    intro o ho
    rcases List.mem_map.1 ho with ⟨x, hx, rfl⟩
    rw [(hkeep x).1, (hwhole x hx).1]
  -- Each option is given the parameters of its name, if there are any.
  have hall : (options.map (·.filled literal)).map (fun o =>
      ((ps.filter (fun p => caseless p.1 o.fmtpName)).map (·.2)).foldl (·.append literal ·) o) =
      options.map (fun o =>
        ((ps.filter (fun p => caseless p.1 o.fmtpName)).map (·.2)).foldl (·.append literal ·)
          (o.filled literal)) := by
    rw [List.map_map]
    refine List.map_congr_left (fun o _ => ?_)
    rw [Function.comp_apply, (hkeep o).1]
  unfold setMediaFormatOptions
  simp only [hfilled, hfind, hindex]
  rw [← hall]
  by_cases hps : ps = []
  · rw [hps]
    simp [joined]
  · rw [if_neg (mt joined_eq_nil.1 hps), parseFrom_joined _ _ ps hclean hps _ _
      (Nat.le_succ_of_le (length_joined ps)),
      foldl_applyParameter ps (by rw [hnames]; exact hdistinct)
      (by rw [hnames]; exact fun p hp => ⟨(hclean p hp).key_ne, hknown p hp⟩)]
    · split
      · exact Or.inl rfl
      · exact Or.inr rfl
    -- Two parameters have a semicolon between them.
    · intro hsep
      by_contra hlong
      refine absurd hsep ?_
      rw [if_pos]
      · decide
      · match ps, hps, hlong with
        | [_], _, h => exact absurd rfl h
        | p :: q :: ps, _, _ => simp [joined]

/-- Every option that is printed has its value. -/
def Returned (options result : List MediaOption) : Prop :=
  List.Forall₂ (fun o r => o.fmtpName ≠ [] → r.value = o.value) options result

/-- A format with the same options, and for each that is printed a value from which its own is
regained. -/
def Ready (options other : List MediaOption) : Prop :=
  List.Forall₂ (fun o r => r = { o with value := r.value } ∧
    (o.fmtpName ≠ [] → Regained o r.value)) options other

theorem fields_eq {o r : MediaOption} (h : r = { o with value := r.value }) :
    r.fmtpName = o.fmtpName ∧ r.name = o.name ∧ r.fmtpDefault = o.fmtpDefault := by
  rw [h]
  exact ⟨rfl, rfl, rfl⟩

/-- The options of both formats correspond. -/
theorem Ready.mem {options other : List MediaOption} (h : Ready options other) {r : MediaOption}
    (hr : r ∈ other) : ∃ o ∈ options, r.fmtpName = o.fmtpName ∧ r.name = o.name := by
  unfold Ready at h
  induction h with
  | nil => exact nomatch hr
  | cons hhead _ ih =>
      rcases List.mem_cons.1 hr with rfl | hrest
      · have hfields := fields_eq hhead.1
        exact ⟨_, List.mem_cons_self, hfields.1, hfields.2.1⟩
      · rcases ih hrest with ⟨o, ho, hsame⟩
        exact ⟨o, List.mem_cons_of_mem _ ho, hsame⟩

theorem Ready.names {options other : List MediaOption} (h : Ready options other) :
    other.map (·.fmtpName) = options.map (·.fmtpName) := by
  unfold Ready at h
  induction h with
  | nil => rfl
  | cons hhead _ ih =>
      rw [List.map_cons, List.map_cons, ih, (fields_eq hhead.1).1]

theorem Ready.regained {options other : List MediaOption} (h : Ready options other)
    {o : MediaOption} (ho : o ∈ options) (hne : o.fmtpName ≠ []) : ∃ w, Regained o w := by
  unfold Ready at h
  induction h with
  | nil => exact nomatch ho
  | cons hhead _ ih =>
      rcases List.mem_cons.1 ho with rfl | hrest
      · exact ⟨_, hhead.2 hne⟩
      · exact ih hrest

/-- Nothing but the value of an option changes. -/
theorem foldl_append_same (tokens : List Text) (o : MediaOption) :
    tokens.foldl (·.append literal ·) o =
      { o with value := (tokens.foldl (·.append literal ·) o).value } := by
  induction tokens generalizing o with
  | nil => rfl
  | cons token tokens ih =>
      rw [List.foldl_cons]
      exact ih (o.append literal token)

theorem filled_same (o : MediaOption) :
    o.filled literal = { o with value := (o.filled literal).value } := by
  unfold MediaOption.filled
  split <;> rfl

/-- Reading what is printed: the options are the same, and have their values. -/
theorem read_printed {options other : List MediaOption} (hoptions : WellNamed options)
    (hother : Ready options other) :
    List.Forall₂ (fun o r => r = { o with value := r.value } ∧
        (o.fmtpName ≠ [] → r.value = o.value))
      options (setMediaFormatOptions literal (getFMTP [] options) other) := by
  have hprinted : ∀ o ∈ options, o.fmtpName ≠ [] →
      o.Valued ∧ ∀ token ∈ o.tokens, token ≠ [] ∧ Clean token := by
    intro o ho hne
    rcases hother.regained ho hne with ⟨w, hw⟩
    exact hw.printed
  have hparam : ∀ p ∈ options.flatMap (·.parameters),
      CleanParam p ∧ p.1 ∈ options.map (·.fmtpName) := by
    intro p hp
    rcases List.mem_flatMap.1 hp with ⟨o, ho, hpo⟩
    unfold MediaOption.parameters at hpo
    split at hpo
    · exact nomatch hpo
    · rename_i hne
      rcases List.mem_map.1 hpo with ⟨token, htoken, rfl⟩
      have hclean := (hprinted o ho hne).2 token htoken
      exact ⟨⟨hoptions.clean o ho, hne, hclean.2, hclean.1⟩, List.mem_map_of_mem ho⟩
  rw [getFMTP_eq hoptions (fun o ho hne => (hprinted o ho hne).1),
    setMediaFormatOptions_joined _ (by rw [hother.names]; exact hoptions.distinct)
      (fun r hr => by
        rcases hother.mem hr with ⟨o, ho, hname, hname'⟩
        rw [hname, hname']
        exact hoptions.notWhole o ho)
      (fun p hp => (hparam p hp).1)
      (fun p hp => ⟨p.1, by rw [hother.names]; exact (hparam p hp).2, caseless_refl _⟩),
    List.forall₂_map_right_iff]
  have hall := (List.forall₂_and_left options other).2 ⟨fun o ho => ho, hother⟩
  refine hall.imp (fun o r h => ?_)
  rcases h with ⟨ho, hsame, hregained⟩
  have hfields := fields_eq hsame
  constructor
  · rw [foldl_append_same, filled_same, hsame]
  · intro hne
    rw [hfields.1, filter_parameters hoptions.distinct ho hne]
    exact (hregained hne).foldl_append hfields.2.2

/-- A value is regained from itself, if a string that is not empty has a default. -/
theorem Regained.again {o : MediaOption} {other : OptionValue} (h : Regained o other)
    (hstring : ∀ s, o.value = .string s → s = [] ∨ o.fmtpDefault ≠ []) : Regained o o.value := by
  rcases ho : o.value with ⟨type, lo, hi, v⟩ | ⟨names, i⟩ | s | b
  all_goals rcases hr : other with ⟨type', lo', hi', w⟩ | ⟨names', j⟩ | s' | b'
  all_goals
    rw [Regained, ho, hr] at h
    try exact h.elim
  all_goals rw [Regained, ho]
  · exact ⟨⟨rfl, rfl, rfl⟩, h.2⟩
  · exact ⟨rfl, h.2⟩
  · rcases h with ⟨hvalued, htokens, hplain, heq⟩
    -- Without a default the string would be appended to itself.
    by_cases hd : o.fmtpDefault = []
    · have hs : s = [] := (hstring s ho).resolve_right (fun hne => hne hd)
      rw [hs, hd]
      refine ⟨fun _ => rfl, ?_, ?_, rfl⟩
      · exact fun _ hmem => absurd hmem List.not_mem_nil
      · exact fun _ hc => absurd hc List.not_mem_nil
    · rw [if_pos hd] at hplain heq
      refine ⟨hvalued, htokens, ?_, ?_⟩
      · rw [if_pos hd]
        exact hplain
      · rw [if_pos hd]
        exact heq
  · by_cases hb : b = []
    · exact Or.inr ⟨(h.resolve_left (fun hne => hne hb)).1, hb⟩
    · exact Or.inl hb

/-- What is printed for a format gives the options their values, read into a format with the
same options once, or in `PostDecode` where that keeps the format and strings have defaults. -/
theorem fmtp_round_trip (literal : Text → Text) {options registered : List MediaOption}
    (hoptions : WellNamed options) (hregistered : Ready options registered) :
    Returned options (setMediaFormatOptions literal (getFMTP [] options) registered) ∧
      ((∀ o ∈ options, o.fmtpName ≠ [] → ∀ s, o.value = .string s →
          s = [] ∨ o.fmtpDefault ≠ []) →
        ∀ result, postDecode literal (getFMTP [] options) registered = some result →
          Returned options result) := by
  have hfirst := @read_printed literal _ _ hoptions hregistered
  refine ⟨hfirst.imp (fun _ _ h => h.2), fun hstrings result hresult => ?_⟩
  -- The second time the values are read over themselves.
  have hagain : Ready options (setMediaFormatOptions literal (getFMTP [] options) registered) := by
    have hall := (List.forall₂_and_left _ _).2 ⟨fun o ho => ho, hfirst⟩
    refine hall.imp (fun o r h => ⟨h.2.1, fun hne => ?_⟩)
    rcases hregistered.regained h.1 hne with ⟨w, hw⟩
    rw [h.2.2 hne]
    exact hw.again (hstrings o h.1 hne)
  have hsecond := @read_printed literal _ _ hoptions hagain
  unfold postDecode at hresult
  simp only at hresult
  split at hresult
  · rw [← Option.some.inj hresult]
    exact hsecond.imp (fun _ _ h => h.2)
  · exact nomatch hresult

/-- A number, an enumeration and a string of two tokens, the first of which is its default. -/
def amrOptions : List MediaOption :=
  [⟨"Mode".toList, "mode".toList, "0".toList, .minMerge, .number .unsigned 0 8 7⟩,
    ⟨"Align".toList, "align".toList, "no".toList, .noMerge,
      .enumeration ["no".toList, "yes".toList] 1⟩,
    ⟨"Sets".toList, "sets".toList, "a".toList, .noMerge, .string "a;b".toList⟩]

/-- The format with the defaults. -/
def amrDefaults : List MediaOption :=
  [⟨"Mode".toList, "mode".toList, "0".toList, .minMerge, .number .unsigned 0 8 0⟩,
    ⟨"Align".toList, "align".toList, "no".toList, .noMerge,
      .enumeration ["no".toList, "yes".toList] 0⟩,
    ⟨"Sets".toList, "sets".toList, "a".toList, .noMerge, .string "a".toList⟩]

theorem ready_amr : Ready amrOptions amrDefaults := by
  refine .cons ⟨rfl, fun _ => ?_⟩ (.cons ⟨rfl, fun _ => ?_⟩ (.cons ⟨rfl, fun _ => ?_⟩ .nil))
  · exact ⟨⟨rfl, rfl, rfl⟩, by decide, by decide, by decide⟩
  · exact ⟨rfl, "yes".toList, rfl, by decide +kernel, by decide +kernel, by decide +kernel⟩
  · exact ⟨by decide +kernel, by decide +kernel, by decide +kernel, by decide +kernel⟩

/-- Once, and twice. -/
theorem fmtp_round_trip_amr :
    Returned amrOptions (setMediaFormatOptions id (getFMTP [] amrOptions) amrDefaults) ∧
      ∀ result, postDecode id (getFMTP [] amrOptions) amrDefaults = some result →
        Returned amrOptions result := by
  have hnamed : WellNamed amrOptions :=
    ⟨by decide +kernel, by decide +kernel, by decide +kernel⟩
  have h := fmtp_round_trip id hnamed ready_amr
  have hdefault : ∀ o ∈ amrOptions, o.fmtpDefault ≠ [] := by decide +kernel
  exact ⟨h.1, h.2 (fun o ho _ _ _ => Or.inr (hdefault o ho))⟩

/-- A string that is empty and has a default. -/
def emptyOption : MediaOption :=
  ⟨"Layout".toList, "layout".toList, "0".toList, .noMerge, .string []⟩

/-- An enumeration that has to be equal in both formats. -/
def equalOption (value : Nat) : MediaOption :=
  ⟨"Annex B".toList, "annexb".toList, "yes".toList, .equalMerge,
    .enumeration ["no".toList, "yes".toList] value⟩

/-- The empty string comes back as the default and a one, and a format is not kept where its
enumeration has to be equal and is not. -/
theorem not_returned_empty :
    ¬ Returned [emptyOption] (setMediaFormatOptions id (getFMTP [] [emptyOption])
      [{ emptyOption with value := .string ['0'] }]) ∧
    postDecode id (getFMTP [] [equalOption 0]) [equalOption 1] = none := by
  refine ⟨?_, by decide +kernel⟩
  have hread : setMediaFormatOptions id (getFMTP [] [emptyOption])
      [{ emptyOption with value := .string ['0'] }] =
        [{ emptyOption with value := .string "0;1".toList }] := by decide +kernel
  rw [hread]
  intro h
  cases h with
  | cons hhead _ => exact absurd (hhead (by decide)) (by decide)

end RoundTrip

end Sip

end CryptoOpal
