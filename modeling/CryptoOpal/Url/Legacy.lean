import CryptoOpal.Url.Text

/-!
# The Parser of URLs

A URL is parsed as the table of its scheme says, from the left: user, password, host and port,
then the query, the parameters and the fragment are cut off behind the first separator of each,
and what is left is the path or the contents.

All loops but one end for every text. Each round of the splitting of variables starts behind the
separator that the round before it has found. The normalisation of a path takes two segments out
and goes back by one, so that there is less behind it. The loop that looks for the parameters of
a callto URL, and that should pass over a plus in front of a digit, starts at the front of the
text in each round. Once it meets such a plus it meets it for ever.

## Main definitions

* `splitVars`: The variables of a text.
* `setPathStr`: The segments of a path.
* `legacyParse`: The parser.
* `Stuck`: The loop for the parameters of a callto URL does not end.

## Theorems

* `splitVars_ends`: When the variables are split.
* `legacyParse_ends`: When the parser returns.
-/

namespace CryptoOpal

namespace Url

open Lib (Octets)

/-- `PStringToString` with keys whose case does not matter. -/
abbrev Vars := List (Octets × Octets)

/-- The value of a key, nothing when it is not there. -/
def Vars.at? (vars : Vars) (key : Octets) : Option Octets :=
  (vars.find? fun entry => sameCaseless entry.1 key).map (·.2)

/-- `operator()`. -/
def Vars.value (vars : Vars) (key : Octets) : Octets := (vars.at? key).getD []

/-- `SetAt`. -/
def Vars.setAt (vars : Vars) (key data : Octets) : Vars :=
  if (vars.at? key).isSome then
    vars.map fun entry => if sameCaseless entry.1 key then (entry.1, data) else entry
  else vars ++ [(key, data)]

/-- A separator, or the index in front of the largest. -/
def nextSeparator (str : Octets) (sep : UInt8) (offset : Nat) : Nat :=
  if find str sep offset = pMaxIndex then pMaxIndex - 1 else find str sep offset

theorem nextSeparator_spec (str : Octets) (sep : UInt8) (offset : Nat) :
    nextSeparator str sep offset + 1 = pMaxIndex ∨
      offset ≤ nextSeparator str sep offset ∧ nextSeparator str sep offset < str.length := by
  rw [nextSeparator]
  split
  · exact .inl rfl
  next hfound => exact .inr ((find_spec str sep offset).resolve_left hfound)

/-- The place of the first octet that is no blank. -/
def skipSpace (str : Octets) (pos : Nat) : Nat := pos + ((str.drop pos).takeWhile isSpace).length

/-- The loop that finds the end quote. -/
def endQuoteLoop (str : Octets) (endQuote : Nat) : Nat :=
  if find str 34 (endQuote + 1) = pMaxIndex then str.length - 1
  else if charAt str (find str 34 (endQuote + 1) - 1) = 92 then
    endQuoteLoop str (find str 34 (endQuote + 1))
  else find str 34 (endQuote + 1)
termination_by str.length - endQuote
decreasing_by
  have hspec := find_spec str 34 (endQuote + 1)
  omega

/-- The key of a variable between two places. -/
def keyOf (str : Octets) (sep1prev sep1next sep2pos : Nat) : Octets :=
  if sep2pos > sep1next then between str sep1prev sep1next else between str sep1prev sep2pos

/-- The quoted text behind the second separator, if there is one. -/
def quotedText (str : Octets) (sep1next sep2pos : Nat) (type : TranslationType) : Option Octets :=
  if sep2pos > sep1next then none
  else if type ≠ .quotedParameter then none
  else if charAt str (skipSpace str (sep2pos + 1)) = 34 then
    some (between str (skipSpace str (sep2pos + 1))
      (endQuoteLoop str (skipSpace str (sep2pos + 1) + 1) + 1))
  else none

/-- The data of a variable without quotes. -/
def plainText (str : Octets) (sep1next sep2pos : Nat) (type : TranslationType) : Octets :=
  if sep2pos > sep1next then []
  else if type ≠ .quotedParameter then between str (sep2pos + 1) sep1next
  else between str (skipSpace str (sep2pos + 1)) sep1next

/-- The separator behind a variable: behind its end quote, if it is quoted. -/
def variableEnd (str : Octets) (sep1 : UInt8) (sep1next sep2pos : Nat) (type : TranslationType) :
    Nat :=
  match quotedText str sep1next sep2pos type with
  | none => sep1next
  | some _ =>
    if sep1next < endQuoteLoop str (skipSpace str (sep2pos + 1) + 1) then
      nextSeparator str sep1 (endQuoteLoop str (skipSpace str (sep2pos + 1) + 1))
    else sep1next

/-- The variables with one more. -/
def addVar (vars : Vars) (key data : Octets) (type : TranslationType) : Vars :=
  let key := untranslateString key type
  if key = [] then vars
  else
    match vars.at? key with
    | some old => vars.setAt key (old ++ 10 :: untranslateString data type)
    | none => vars.setAt key (untranslateString data type)

/-- The place behind a variable. -/
def nextVar (str : Octets) (sep1 sep2 : UInt8) (type : TranslationType) (sep1prev : Nat) : Nat :=
  variableEnd str sep1 (nextSeparator str sep1 sep1prev) (find str sep2 sep1prev) type + 1

theorem le_skipSpace (str : Octets) (pos : Nat) : pos ≤ skipSpace str pos := Nat.le_add_right _ _

theorem endQuoteLoop_spec (str : Octets) (endQuote : Nat) :
    endQuoteLoop str endQuote = str.length - 1 ∨ endQuote < endQuoteLoop str endQuote := by
  induction endQuote using endQuoteLoop.induct str with
  | case1 endQuote hnone =>
      rw [endQuoteLoop.eq_def, if_pos hnone]
      exact .inl rfl
  | case2 endQuote hfound hslash ih =>
      rw [endQuoteLoop.eq_def, if_neg hfound, if_pos hslash]
      have hspec := (find_spec str 34 (endQuote + 1)).resolve_left hfound
      omega
  | case3 endQuote hfound hslash =>
      rw [endQuoteLoop.eq_def, if_neg hfound, if_neg hslash]
      have hspec := (find_spec str 34 (endQuote + 1)).resolve_left hfound
      exact .inr (Nat.lt_of_succ_le hspec.1)

theorem le_of_quoted {str quoted : Octets} {sep1next sep2pos : Nat} {type : TranslationType}
    (h : quotedText str sep1next sep2pos type = some quoted) : sep2pos ≤ sep1next := by
  rw [quotedText] at h
  split at h
  · exact nomatch h
  next hle => exact Nat.le_of_not_lt hle

/-- Each variable ends behind the one before it, or it is the last one. -/
theorem nextVar_spec (str : Octets) (sep1 sep2 : UInt8) (type : TranslationType) (sep1prev : Nat) :
    nextVar str sep1 sep2 type sep1prev = pMaxIndex ∨
      sep1prev < nextVar str sep1 sep2 type sep1prev ∧
        nextVar str sep1 sep2 type sep1prev ≤ str.length := by
  have hfirst := nextSeparator_spec str sep1 sep1prev
  rw [nextVar, variableEnd]
  split
  · omega
  next quoted hquoted =>
    split
    next hlt =>
      have hsecond := nextSeparator_spec str sep1
        (endQuoteLoop str (skipSpace str (find str sep2 sep1prev + 1) + 1))
      have hle := le_of_quoted hquoted
      have hkey := find_spec str sep2 sep1prev
      have hquote := endQuoteLoop_spec str (skipSpace str (find str sep2 sep1prev + 1) + 1)
      have hskip := le_skipSpace str (find str sep2 sep1prev + 1)
      -- the end quote is behind the second separator
      omega
    · omega

/-- The loop of `SplitVars`. The reading of a quoted text needs fuel. -/
def splitLoop (memory : Nat → UInt8) (fuel : Nat) (str : Octets) (sep1 sep2 : UInt8)
    (type : TranslationType) (sep1prev : Nat) (vars : Vars) : Option Vars :=
  match
    (match quotedText str (nextSeparator str sep1 sep1prev) (find str sep2 sep1prev) type with
    | none => some (plainText str (nextSeparator str sep1 sep1prev) (find str sep2 sep1prev) type)
    | some quoted => translateEscapes memory fuel quoted) with
  | none => none
  | some data =>
    if _hlast : nextVar str sep1 sep2 type sep1prev = pMaxIndex then
      some (addVar vars (keyOf str sep1prev (nextSeparator str sep1 sep1prev)
        (find str sep2 sep1prev)) data type)
    else
      splitLoop memory fuel str sep1 sep2 type (nextVar str sep1 sep2 type sep1prev)
        (addVar vars (keyOf str sep1prev (nextSeparator str sep1 sep1prev)
          (find str sep2 sep1prev)) data type)
termination_by str.length - sep1prev
decreasing_by
  have hspec := (nextVar_spec str sep1 sep2 type sep1prev).resolve_left _hlast
  omega

/-- `SplitVars`. -/
def splitVars (memory : Nat → UInt8) (fuel : Nat) (str : Octets) (sep1 sep2 : UInt8)
    (type : TranslationType) : Option Vars :=
  splitLoop memory fuel str sep1 sep2 type 0 []

section Splitting

variable (str : Octets) (sep1 sep2 : UInt8) (type : TranslationType)

/-- The quoted texts from this place on. -/
def quotedFrom (sep1prev : Nat) : List Octets :=
  (quotedText str (nextSeparator str sep1 sep1prev) (find str sep2 sep1prev) type).toList ++
    if _hlast : nextVar str sep1 sep2 type sep1prev = pMaxIndex then []
    else quotedFrom (nextVar str sep1 sep2 type sep1prev)
termination_by str.length - sep1prev
decreasing_by
  have hspec := (nextVar_spec str sep1 sep2 type sep1prev).resolve_left _hlast
  omega

theorem length_quoted_le {quoted : Octets} {sep1next sep2pos : Nat}
    (h : quotedText str sep1next sep2pos type = some quoted) : quoted.length ≤ str.length := by
  rw [quotedText] at h
  split at h
  · exact nomatch h
  · split at h
    · exact nomatch h
    · split at h
      · cases h
        rw [between, List.length_take, List.length_drop]
        omega
      · exact nomatch h

theorem splitLoop_isSome (memory : Nat → UInt8) {fuel : Nat} (hfuel : str.length < fuel)
    (sep1prev : Nat) (vars : Vars)
    (h : ∀ quoted ∈ quotedFrom str sep1 sep2 type sep1prev, ¬ EndsInEscape quoted) :
    (splitLoop memory fuel str sep1 sep2 type sep1prev vars).isSome := by
  induction sep1prev using quotedFrom.induct str sep1 sep2 type generalizing vars with
  | _ sep1prev ih =>
    rw [quotedFrom, List.forall_mem_append] at h
    obtain ⟨hhere, hrest⟩ := h
    obtain ⟨data, hdata⟩ : ∃ data, (match quotedText str (nextSeparator str sep1 sep1prev)
          (find str sep2 sep1prev) type with
        | none => some (plainText str (nextSeparator str sep1 sep1prev) (find str sep2 sep1prev) type)
        | some quoted => translateEscapes memory fuel quoted) = some data := by
      cases hquoted : quotedText str (nextSeparator str sep1 sep1prev)
          (find str sep2 sep1prev) type with
      | none => exact ⟨_, rfl⟩
      | some quoted =>
          rw [hquoted] at hhere
          have hle := length_quoted_le str type hquoted
          exact Option.isSome_iff_exists.1 (translateEscapes_isSome memory
            (hhere quoted List.mem_cons_self) (Nat.lt_of_le_of_lt hle hfuel))
    rw [splitLoop, hdata]
    simp only
    by_cases hlast : nextVar str sep1 sep2 type sep1prev = pMaxIndex
    · rw [dif_pos hlast]
      rfl
    · rw [dif_neg hlast] at hrest ⊢
      exact ih hlast _ hrest

theorem splitLoop_none (fuel sep1prev : Nat) (vars : Vars)
    (h : ∃ quoted ∈ quotedFrom str sep1 sep2 type sep1prev, EndsInEscape quoted) :
    splitLoop (fun _ => 97) fuel str sep1 sep2 type sep1prev vars = none := by
  induction sep1prev using quotedFrom.induct str sep1 sep2 type generalizing vars with
  | _ sep1prev ih =>
    rcases h with ⟨quoted, hmem, hopen⟩
    rw [quotedFrom, List.mem_append] at hmem
    rw [splitLoop]
    split
    · rfl
    next data hdata =>
      rcases hmem with hmem | hmem
      · rw [Option.mem_toList] at hmem
        rw [hmem] at hdata
        exact nomatch (translateEscapes_none fuel hopen).symm.trans hdata
      · by_cases hlast : nextVar str sep1 sep2 type sep1prev = pMaxIndex
        · rw [dif_pos hlast] at hmem
          exact absurd hmem List.not_mem_nil
        · rw [dif_neg hlast] at hmem ⊢
          exact ih hlast _ ⟨quoted, hmem, hopen⟩

/-- The splitting ends, whatever is in the memory, if no quoted text ends within an escape. -/
theorem splitVars_ends :
    (∀ memory, ∃ fuel, (splitVars memory fuel str sep1 sep2 type).isSome) ↔
      ∀ quoted ∈ quotedFrom str sep1 sep2 type 0, ¬ EndsInEscape quoted := by
  refine ⟨fun h quoted hmem hopen => ?_, fun h memory => ⟨str.length + 1, ?_⟩⟩
  · obtain ⟨fuel, hfuel⟩ := h fun _ => 97
    rw [splitVars, splitLoop_none str sep1 sep2 type fuel 0 [] ⟨quoted, hmem, hopen⟩] at hfuel
    exact nomatch hfuel
  · exact splitLoop_isSome str sep1 sep2 type memory (Nat.lt_succ_self _) 0 [] h

/-- Without quotes it always ends. -/
theorem quotedFrom_nil (htype : type ≠ .quotedParameter) (sep1prev : Nat) :
    quotedFrom str sep1 sep2 type sep1prev = [] := by
  induction sep1prev using quotedFrom.induct str sep1 sep2 type with
  | _ sep1prev ih =>
    have hnone : quotedText str (nextSeparator str sep1 sep1prev) (find str sep2 sep1prev) type =
        none := by
      rw [quotedText, if_pos htype, ite_self]
    rw [quotedFrom, hnone]
    by_cases hlast : nextVar str sep1 sep2 type sep1prev = pMaxIndex
    · rw [dif_pos hlast]
      rfl
    · rw [dif_neg hlast, ih hlast]
      rfl

end Splitting

/-- `Tokenise` with one token per separator, of a text that is not empty. -/
def tokens (sep : UInt8) : Octets → List Octets
  | [] => [[]]
  | c :: rest =>
    if c = sep then [] :: tokens sep rest
    else
      match tokens sep rest with
      | [] => [[c]]
      | token :: more => (c :: token) :: more

/-- `Tokenise`. -/
def tokenise (str : Octets) (sep : UInt8) : List Octets :=
  if str = [] then [] else tokens sep str

/-- The segment that goes up. -/
def dotDot : Octets := [46, 46]

/-- The loop of `SetPathStr`. -/
def pathLoop (path : List Octets) (i : Nat) : List Octets :=
  if i < path.length then
    if 0 < i ∧ untranslateString (path.getD i []) .path = dotDot ∧ path.getD (i - 1) [] ≠ dotDot then
      pathLoop ((path.eraseIdx i).eraseIdx (i - 1)) (i - 1)
    else pathLoop (path.set i (untranslateString (path.getD i []) .path)) (i + 1)
  else path
termination_by path.length - i
decreasing_by
  · rw [List.length_eraseIdx_of_lt (by rw [List.length_eraseIdx_of_lt (by omega)]; omega),
      List.length_eraseIdx_of_lt (by omega)]
    omega
  · rw [List.length_set]
    omega

/-- `SetPathStr`. -/
def setPathStr (pathStr : Octets) : List Octets :=
  match tokenise pathStr 47 with
  | [] :: path => pathLoop path 0
  | path => pathLoop path 0

/-- The schemes of the table. -/
inductive Scheme where
  | http
  | file
  | https
  | gopher
  | wais
  | nntp
  | prospero
  | rtsp
  | rtspu
  | ftp
  | telnet
  | mailto
  | news
  | h323
  | h323s
  | rtmp
  | sip
  | sips
  | fax
  | callto
  | msrp
  deriving DecidableEq

/-- `PURLLegacyScheme`. -/
structure LegacyScheme where
  hasUsername : Bool
  hasPassword : Bool
  hasHostPort : Bool
  defaultToUserIfNoAt : Bool
  defaultHostToLocal : Bool
  hasQuery : Bool
  hasParameters : Bool
  hasFragments : Bool
  hasPath : Bool
  relativeImpliesScheme : Bool
  defaultPort : Nat
  deriving DecidableEq

/-- The table. -/
def Scheme.info : Scheme → LegacyScheme
  | .http => ⟨true, true, true, false, true, true, true, true, true, true, 80⟩
  | .file => ⟨false, false, true, false, true, false, false, false, true, false, 0⟩
  | .https => ⟨false, false, true, false, true, true, true, true, true, true, 443⟩
  | .gopher => ⟨false, false, true, false, true, false, false, false, true, false, 70⟩
  | .wais => ⟨false, false, true, false, false, false, false, false, true, false, 210⟩
  | .nntp => ⟨false, false, true, false, true, false, false, false, true, false, 119⟩
  | .prospero => ⟨false, false, true, false, true, false, false, false, true, false, 1525⟩
  | .rtsp => ⟨false, false, true, false, true, true, false, false, true, false, 554⟩
  | .rtspu => ⟨false, false, true, false, true, false, false, false, true, false, 554⟩
  | .ftp => ⟨true, true, true, false, true, false, false, false, true, false, 21⟩
  | .telnet => ⟨true, true, true, false, true, false, false, false, false, false, 23⟩
  | .mailto => ⟨false, false, false, true, false, true, false, false, false, false, 0⟩
  | .news => ⟨false, false, false, false, true, false, false, false, false, false, 0⟩
  | .h323 => ⟨true, false, true, true, false, false, true, false, false, false, 1720⟩
  | .h323s => ⟨true, false, true, true, false, false, true, false, false, false, 1300⟩
  | .rtmp => ⟨false, false, true, false, false, false, false, false, true, false, 1935⟩
  | .sip => ⟨true, true, true, false, false, true, true, false, false, false, 5060⟩
  | .sips => ⟨true, true, true, false, false, true, true, false, false, false, 5061⟩
  | .fax => ⟨false, false, false, true, false, false, true, false, false, false, 0⟩
  | .callto => ⟨false, false, false, true, false, false, true, false, false, false, 0⟩
  | .msrp => ⟨false, false, true, false, false, true, true, false, true, false, 2855⟩

/-- The name of a scheme. -/
def Scheme.name : Scheme → Octets
  | .http => text ['h', 't', 't', 'p']
  | .file => text ['f', 'i', 'l', 'e']
  | .https => text ['h', 't', 't', 'p', 's']
  | .gopher => text ['g', 'o', 'p', 'h', 'e', 'r']
  | .wais => text ['w', 'a', 'i', 's']
  | .nntp => text ['n', 'n', 't', 'p']
  | .prospero => text ['p', 'r', 'o', 's', 'p', 'e', 'r', 'o']
  | .rtsp => text ['r', 't', 's', 'p']
  | .rtspu => text ['r', 't', 's', 'p', 'u']
  | .ftp => text ['f', 't', 'p']
  | .telnet => text ['t', 'e', 'l', 'n', 'e', 't']
  | .mailto => text ['m', 'a', 'i', 'l', 't', 'o']
  | .news => text ['n', 'e', 'w', 's']
  | .h323 => text ['h', '3', '2', '3']
  | .h323s => text ['h', '3', '2', '3', 's']
  | .rtmp => text ['r', 't', 'm', 'p']
  | .sip => text ['s', 'i', 'p']
  | .sips => text ['s', 'i', 'p', 's']
  | .fax => text ['f', 'a', 'x']
  | .callto => text ['c', 'a', 'l', 'l', 't', 'o']
  | .msrp => text ['m', 's', 'r', 'p']

/-- `PURL`, as far as the parser sets it. -/
structure Purl where
  username : Octets
  password : Octets
  hostname : Octets
  port : Nat
  portSupplied : Bool
  relativePath : Bool
  path : List Octets
  paramVars : Vars
  fragment : Octets
  queryVars : Vars
  contents : Octets
  deriving DecidableEq

/-- The bucket of a key, from its first eight octets. -/
def hashFunction (key : Octets) : Nat :=
  let hash := (key.take 8).foldl
    (fun hash c => ((hash <<< 5) ^^^ (toLower c).toNat ^^^ hash) % 4294967296) 0
  (if hash < 2147483648 then hash else 4294967296 - hash) % 2147483648 % 127

/-- The variables in the order of their buckets. -/
def Vars.inOrder (vars : Vars) : Vars :=
  (List.range 127).flatMap fun bucket => vars.filter fun entry => hashFunction entry.1 = bucket

/-- A variable as it is printed. -/
def outputVar (sep2 : UInt8) (type : TranslationType) (entry : Octets × Octets) : Octets :=
  let key := translateString entry.1 type
  let data := translateString entry.2 type
  if key = [] then data else if data = [] then key else key ++ sep2 :: data

/-- `OutputVars`. -/
def outputVars (vars : Vars) (sep0 sep1 sep2 : UInt8) (type : TranslationType) : Octets :=
  match vars.inOrder.map (outputVar sep2 type) with
  | [] => []
  | first :: rest =>
    (if sep0 = 0 then [] else [sep0]) ++ first ++ rest.flatMap fun printed => sep1 :: printed

/-- A number as it is printed. -/
def decimal (n : Nat) : Octets := (Nat.toDigits 10 n).map ascii

/-- `GetPathStr`. -/
def Purl.pathStr (url : Purl) : Octets :=
  let segments := url.path.map fun segment => translateString segment .path
  match segments with
  | [] => []
  | first :: rest =>
    (if url.relativePath then [] else [47]) ++ first ++ rest.flatMap fun segment => 47 :: segment

/-- `LegacyAsString` with `HostPortOnly`. -/
def Purl.hostPortOnly (url : Purl) (scheme : Scheme) : Octets :=
  let info := scheme.info
  let head := scheme.name ++ [58]
  if url.relativePath then
    if info.relativeImpliesScheme then [] else head
  else
    let user :=
      if info.hasUsername ∧ url.username ≠ [] then
        translateString url.username .login ++
          (if info.hasPassword ∧ url.password ≠ [] then
            58 :: translateString url.password .login else []) ++ [64]
      else []
    let host :=
      if ¬ info.hasHostPort then []
      else if find url.hostname 58 0 ≠ pMaxIndex ∧ charAt url.hostname 0 ≠ 91 then
        91 :: url.hostname ++ [93]
      else url.hostname
    let port :=
      if info.defaultPort ≠ 0 ∧ (url.port ≠ info.defaultPort ∨ url.portSupplied) then
        58 :: decimal url.port
      else []
    let printed := (if info.hasPath ∧ info.hasHostPort then [47, 47] else []) ++ user ++ host ++ port
    if info.defaultToUserIfNoAt then head ++ printed
    else if printed = [] then []
    else head ++ printed

/-- `LegacyAsString` with `URIOnly`. -/
def Purl.uriOnly (url : Purl) (scheme : Scheme) : Octets :=
  (if scheme.info.hasPath then url.pathStr else translateString url.contents .path) ++
    (if url.fragment ≠ [] then 35 :: translateString url.fragment .path else []) ++
    outputVars url.paramVars 59 59 61 .parameter ++ outputVars url.queryVars 63 38 61 .query

/-- What `Recalculate` sets: the URL as it is printed. -/
def Purl.urlString (url : Purl) (scheme : Scheme) : Octets :=
  url.hostPortOnly scheme ++ url.uriOnly scheme

/-- The value of the digits in front of a text. -/
def digitsValue (n : Nat) : Octets → Nat
  | [] => n
  | c :: rest => if isDigit c then digitsValue (10 * n + (c - 48).toNat) rest else n

/-- `AsUnsigned`: blanks, a sign, and digits, up to the largest value. -/
def asUnsigned (str : Octets) : Nat :=
  match str.dropWhile isSpace with
  | 43 :: rest => min (digitsValue 0 rest) 4294967295
  | 45 :: rest =>
    if digitsValue 0 rest > 4294967295 then 4294967295
    else (4294967296 - digitsValue 0 rest) % 4294967296
  | rest => min (digitsValue 0 rest) 4294967295

/-- The place from which a port is looked for: behind the address of a host in brackets. -/
def portSearch (host : Octets) : Nat :=
  if find host 93 0 = pMaxIndex then find host 58 0 else find host 58 (find host 93 0)

/-- The port behind a colon. -/
def portAt (host : Octets) (pos : Nat) : Nat := asUnsigned (host.drop (pos + 1)) % 65536

/-- The text without two slashes in front. -/
def dropSlashes (url : Octets) : Octets :=
  if url.length > 2 ∧ charAt url 0 = 47 ∧ charAt url 1 = 47 then delete url 0 2 else url

/-- The loop that finds the parameters of a callto URL; no result when the fuel does not last. -/
def calltoLoop (url : Octets) : Nat → Option Nat
  | 0 => none
  | fuel + 1 =>
    if find url 43 0 ≠ pMaxIndex ∧ isDigit (charAt url (find url 43 0 + 1)) then
      calltoLoop url fuel
    else some (find url 43 0)

/-- The user and host of a callto URL. -/
def calltoUserHost (url : Octets) (paramVars : Vars) : Octets × Octets :=
  let gateway := Vars.value paramVars (text ['g', 'a', 't', 'e', 'w', 'a', 'y'])
  let type := Vars.value paramVars (text ['t', 'y', 'p', 'e'])
  if gateway ≠ [] then (untranslateString url .login, gateway)
  else if sameCaseless type (text ['d', 'i', 'r', 'e', 'c', 't', 'o', 'r', 'y']) then
    if find url 47 0 = pMaxIndex then (untranslateString url .login, gateway)
    else
      (untranslateString (url.drop (find url 47 0 + 1)) .login,
        untranslateString (url.take (find url 47 0)) .login)
  else if find url 64 0 ≠ pMaxIndex then
    (untranslateString (url.take (find url 64 0)) .login,
      untranslateString (url.drop (find url 64 0 + 1)) .login)
  else if sameCaseless type (text ['i', 'p']) || sameCaseless type (text ['h', 'o', 's', 't']) then
    ([], untranslateString url .login)
  else (untranslateString url .login, gateway)

/-- A callto URL. -/
def calltoParse (memory : Nat → UInt8) (fuel : Nat) (url : Octets) : Option Purl :=
  match calltoLoop (dropSlashes url) fuel with
  | none => none
  | some pos =>
    match
      (if pos = pMaxIndex then some []
      else splitVars memory fuel ((dropSlashes url).drop (pos + 1)) 43 61 .parameter) with
    | none => none
    | some paramVars =>
      let userHost := calltoUserHost ((dropSlashes url).take pos) paramVars
      let colon := portSearch userHost.2
      let password := Vars.value paramVars (text ['p', 'a', 's', 's', 'w', 'o', 'r', 'd'])
      if colon = pMaxIndex then
        some ⟨userHost.1, password, userHost.2, 0, false, false, [], paramVars, [], [], []⟩
      else
        some ⟨userHost.1, password, userHost.2.take colon, portAt userHost.2 colon, true, false, [],
          paramVars, [], [], []⟩

/-- The octets that end user, password, host and port. -/
def LegacyScheme.endHostChars (info : LegacyScheme) : Octets :=
  (if info.hasPath then [47] else []) ++ (if info.hasQuery then [63] else []) ++
    (if info.hasParameters then [59] else []) ++ (if info.hasFragments then [35] else [])

/-- Where user, password, host and port end. -/
def LegacyScheme.endOfHost (info : LegacyScheme) (url : Octets) : Nat :=
  if info.endHostChars = [] then pMaxIndex
  else if info.hasUsername ∧ find url 64 0 ≠ pMaxIndex then
    findOneOf url info.endHostChars (find url 64 0)
  else findOneOf url info.endHostChars 0

/-- User and password, and what is left for host and port. -/
def LegacyScheme.userPassword (info : LegacyScheme) (uphp : Octets) : Octets × Octets × Octets :=
  let pos2 := find uphp 64 0
  let pos3 := if info.hasPassword then find uphp 58 0 else pMaxIndex
  if ¬ info.hasUsername then ([], [], uphp)
  else if pos2 = 0 then ([], [], delete uphp 0 1)
  else if pos2 = pMaxIndex then
    if info.defaultToUserIfNoAt then
      if pos3 = pMaxIndex then (untranslateString uphp .login, [], [])
      else
        (untranslateString (uphp.take pos3) .login, untranslateString (uphp.drop (pos3 + 1)) .login,
          [])
    else ([], [], uphp)
  else if pos3 > pos2 then
    (untranslateString (uphp.take pos2) .login, [], delete uphp 0 (pos2 + 1))
  else
    (untranslateString (uphp.take pos3) .login,
      untranslateString (between uphp (pos3 + 1) pos2) .login, delete uphp 0 (pos2 + 1))

/-- Host and port. -/
def LegacyScheme.hostPort (info : LegacyScheme) (localHost hp : Octets) : Octets × Nat × Bool :=
  if info.defaultPort = 0 then (untranslateString hp .login, 0, false)
  else
    let hostname := untranslateString (hp.take (portSearch hp)) .login
    let named := if hostname = [] ∧ info.defaultHostToLocal then localHost else hostname
    if portSearch hp = pMaxIndex then (named, 0, false)
    else (named, portAt hp (portSearch hp), true)

/-- What is behind the first separator, and what is in front of it. -/
def cutOff (enabled : Bool) (url : Octets) (sep : UInt8) : Option Octets × Octets :=
  if enabled ∧ find url sep 0 ≠ pMaxIndex then
    (some (url.drop (find url sep 0 + 1)), url.take (find url sep 0))
  else (none, url)

/-- The variables that were cut off. -/
def cutVars (memory : Nat → UInt8) (fuel : Nat) (cut : Option Octets) (sep1 : UInt8)
    (type : TranslationType) : Option Vars :=
  match cut with
  | none => some []
  | some str => splitVars memory fuel str sep1 61 type

/-- The special case for the port of a gatekeeper. -/
def gatekeeper (scheme : Scheme) (paramVars : Vars) : Bool :=
  decide (scheme = .h323) &&
    decide (Vars.value paramVars (text ['t', 'y', 'p', 'e']) = text ['g', 'k'])

/-- `LegacyParse` for the other schemes. -/
def tableParse (memory : Nat → UInt8) (fuel : Nat) (localHost : Octets) (scheme : Scheme)
    (str : Octets) : Option Purl :=
  let info := scheme.info
  let slashes := info.hasHostPort && info.hasPath
  let relativePath := slashes &&
    ! decide (str.length > 2 ∧ charAt str 0 = 47 ∧ charAt str 1 = 47)
  let url := if slashes then dropSlashes str else str
  let hasAuthority := ! relativePath && info.hasHostPort
  let uphp := if hasAuthority then url.take (info.endOfHost url) else []
  let rest := if hasAuthority then url.drop (info.endOfHost url) else url
  let user := info.userPassword uphp
  let host := if hasAuthority then info.hostPort localHost user.2.2 else ([], 0, false)
  let query := cutOff info.hasQuery rest 63
  let params := cutOff info.hasParameters query.2 59
  let fragment := cutOff info.hasFragments params.2 35
  match cutVars memory fuel query.1 38 .query, cutVars memory fuel params.1 59 .parameter with
  | some queryVars, some paramVars =>
    some
      { username := if hasAuthority then user.1 else []
        password := if hasAuthority then user.2.1 else []
        hostname := host.1
        port :=
          if host.2.1 = 0 ∧ info.defaultPort ≠ 0 ∧ relativePath = false then
            if gatekeeper scheme paramVars then 1719 else info.defaultPort
          else host.2.1
        portSupplied := host.2.2
        relativePath := relativePath
        path := if info.hasPath then setPathStr fragment.2 else []
        paramVars := paramVars
        fragment := untranslateString (fragment.1.getD []) .path
        queryVars := queryVars
        contents := if info.hasPath then [] else untranslateString fragment.2 .path }
  | _, _ => none

/-- `LegacyParse`: the URL, and how it is printed. For callto the text is not recalculated. -/
def legacyParse (memory : Nat → UInt8) (fuel : Nat) (localHost : Octets) (scheme : Scheme)
    (url : Octets) : Option (Purl × Option Octets) :=
  if scheme = .callto then (calltoParse memory fuel url).map fun purl => (purl, none)
  else (tableParse memory fuel localHost scheme url).map fun purl =>
    (purl, some (purl.urlString scheme))

section Ends

variable (scheme : Scheme) (url : Octets)

/-- A plus in front of a digit is the first plus of a callto URL. -/
def Stuck (scheme : Scheme) (url : Octets) : Prop :=
  scheme = .callto ∧ find (dropSlashes url) 43 0 ≠ pMaxIndex ∧
    isDigit (charAt (dropSlashes url) (find (dropSlashes url) 43 0 + 1)) = true

theorem splitVars_isSome (memory : Nat → UInt8) {fuel : Nat} {str : Octets}
    (hfuel : str.length < fuel) (sep1 sep2 : UInt8) {type : TranslationType}
    (htype : type ≠ .quotedParameter) :
    (splitVars memory fuel str sep1 sep2 type).isSome := by
  refine splitLoop_isSome str sep1 sep2 type memory hfuel 0 [] ?_
  rw [quotedFrom_nil str sep1 sep2 type htype]
  exact fun _ h => absurd h List.not_mem_nil

/-- Each round of the loop is like the one before. -/
theorem calltoLoop_stuck (fuel : Nat) (h : find url 43 0 ≠ pMaxIndex ∧
    isDigit (charAt url (find url 43 0 + 1)) = true) : calltoLoop url fuel = none := by
  induction fuel with
  | zero => rfl
  | succ fuel ih => rw [calltoLoop, if_pos h, ih]

theorem calltoLoop_first {fuel : Nat} (hfuel : 0 < fuel) (h : ¬ (find url 43 0 ≠ pMaxIndex ∧
    isDigit (charAt url (find url 43 0 + 1)) = true)) :
    calltoLoop url fuel = some (find url 43 0) := by
  cases fuel with
  | zero => exact absurd hfuel (Nat.lt_irrefl _)
  | succ fuel => rw [calltoLoop, if_neg h]

theorem length_dropSlashes_le : (dropSlashes url).length ≤ url.length := by
  rw [dropSlashes]
  split
  · rw [delete, List.take_zero, List.nil_append, List.length_drop]
    exact Nat.sub_le _ _
  · exact Nat.le_refl _

theorem calltoParse_isSome (memory : Nat → UInt8) {fuel : Nat} (hfuel : url.length < fuel)
    (h : ¬ Stuck .callto url) : (calltoParse memory fuel url).isSome := by
  have hlen := length_dropSlashes_le url
  rw [calltoParse, calltoLoop_first _ (Nat.zero_lt_of_lt hfuel) fun hstuck => h ⟨rfl, hstuck⟩]
  simp only
  obtain ⟨vars, hvars⟩ : ∃ vars, (if find (dropSlashes url) 43 0 = pMaxIndex then some []
      else splitVars memory fuel ((dropSlashes url).drop (find (dropSlashes url) 43 0 + 1)) 43 61
        .parameter) = some vars := by
    split
    · exact ⟨_, rfl⟩
    · refine Option.isSome_iff_exists.1 (splitVars_isSome memory ?_ 43 61 (by decide))
      rw [List.length_drop]
      omega
  rw [hvars]
  simp only
  split <;> rfl

theorem length_cutOff (enabled : Bool) (sep : UInt8) :
    (∀ str ∈ (cutOff enabled url sep).1, str.length ≤ url.length) ∧
      (cutOff enabled url sep).2.length ≤ url.length := by
  rw [cutOff]
  split
  · refine ⟨fun str hstr => ?_, ?_⟩
    · cases hstr
      rw [List.length_drop]
      exact Nat.sub_le _ _
    · rw [List.length_take]
      exact Nat.min_le_right _ _
  · exact ⟨fun _ h => (nomatch h), Nat.le_refl _⟩

theorem cutVars_isSome (memory : Nat → UInt8) {fuel : Nat} {cut : Option Octets}
    (hfuel : ∀ str ∈ cut, str.length < fuel) (sep1 : UInt8) {type : TranslationType}
    (htype : type ≠ .quotedParameter) : (cutVars memory fuel cut sep1 type).isSome := by
  cases cut with
  | none => rfl
  | some str => exact splitVars_isSome memory (hfuel str rfl) sep1 61 htype

theorem tableParse_isSome (memory : Nat → UInt8) {fuel : Nat} (localHost : Octets)
    (hfuel : url.length < fuel) : (tableParse memory fuel localHost scheme url).isSome := by
  unfold tableParse
  extract_lets info slashes relativePath url' hasAuthority uphp rest user host query params fragment
  have hurl : url'.length ≤ url.length := by
    simp only [url']
    split
    · exact length_dropSlashes_le url
    · exact Nat.le_refl _
  have hrest : rest.length ≤ url'.length := by
    simp only [rest]
    split
    · rw [List.length_drop]
      exact Nat.sub_le _ _
    · exact Nat.le_refl _
  obtain ⟨hquery, hbefore⟩ := length_cutOff rest info.hasQuery 63
  obtain ⟨hparams, -⟩ := length_cutOff query.2 info.hasParameters 59
  have hleft : rest.length < fuel := by omega
  have hfront : query.2.length < fuel := Nat.lt_of_le_of_lt hbefore hleft
  have hqueryVars : (cutVars memory fuel query.1 38 .query).isSome :=
    cutVars_isSome memory (fun s hs => Nat.lt_of_le_of_lt (hquery s hs) hleft) 38 (by decide)
  have hparamVars : (cutVars memory fuel params.1 59 .parameter).isSome :=
    cutVars_isSome memory (fun s hs => Nat.lt_of_le_of_lt (hparams s hs) hfront) 59 (by decide)
  obtain ⟨queryVars, hqueryVars⟩ := Option.isSome_iff_exists.1 hqueryVars
  obtain ⟨paramVars, hparamVars⟩ := Option.isSome_iff_exists.1 hparamVars
  rw [hqueryVars, hparamVars]
  rfl

/-- The parser returns but for a callto URL whose first plus is in front of a digit, and the
variables are split but for quoted ones that end within an escape. -/
theorem legacyParse_ends (localHost str : Octets) (sep1 sep2 : UInt8) (type : TranslationType) :
    ((∀ memory, ∃ fuel, (legacyParse memory fuel localHost scheme url).isSome) ↔
        ¬ Stuck scheme url) ∧
      ((∀ memory, ∃ fuel, (splitVars memory fuel str sep1 sep2 type).isSome) ↔
        ∀ quoted ∈ quotedFrom str sep1 sep2 type 0, ¬ EndsInEscape quoted) := by
  refine ⟨⟨fun h hstuck => ?_, fun h memory => ⟨url.length + 1, ?_⟩⟩,
    splitVars_ends str sep1 sep2 type⟩
  · obtain ⟨rfl, hplus⟩ := hstuck
    obtain ⟨fuel, hfuel⟩ := h fun _ => 0
    rw [legacyParse, if_pos rfl, calltoParse, calltoLoop_stuck _ _ hplus] at hfuel
    exact nomatch hfuel
  · rw [legacyParse]
    split
    next hcallto =>
      rw [Option.isSome_map]
      exact calltoParse_isSome url memory (Nat.lt_succ_self _) (hcallto ▸ h)
    · rw [Option.isSome_map]
      exact tableParse_isSome scheme url memory localHost (Nat.lt_succ_self _)

/-- A telephone number of the international form. -/
theorem legacyParse_stuck :
    ¬ ∀ scheme url, ∀ memory, ∃ fuel, (legacyParse memory fuel [] scheme url).isSome := by
  intro hall
  obtain ⟨fuel, hfuel⟩ := hall .callto (text ['+', '6', '1']) fun _ => 0
  have hplus : find (dropSlashes (text ['+', '6', '1'])) 43 0 ≠ pMaxIndex ∧
      isDigit (charAt (dropSlashes (text ['+', '6', '1']))
        (find (dropSlashes (text ['+', '6', '1'])) 43 0 + 1)) = true := by
    decide
  rw [legacyParse, if_pos rfl, calltoParse, calltoLoop_stuck _ _ hplus] at hfuel
  exact nomatch hfuel

end Ends

end Url

end CryptoOpal
