import CryptoOpal.Url.Escapes

/-!
# Variables of a URL

A list of variables is written with a separator between the variables and another one behind each
key, and it is split at the separators again. In parameters and queries whatever could be a
separator is escaped. A quoted parameter that has an octet to be escaped is written as a literal
in quotes, and its separators stay: the splitting searches the end quote.

What is written in quotes comes back unless it looks like an escape, which is taken for one, or
ends with a backslash, which hides the end quote. Keys are not read as literals at all.

## Main definitions

* `Tame`: What comes back.
* `splitText`: What is split of the printed text.
* `Advances`: A round of the splitting reads a variable.

## Theorems

* `advances_pair`, `advances_quoted`: One round.
* `splitLoop_entries`: All rounds.
* `inOrder_perm`: The order of printing.
* `splitVars_outputVars`: The variables come back.
-/

namespace CryptoOpal

namespace Url

open Lib (Octets)

/-- The variables behind the first one, as they are printed. -/
def printedRest (sep1 sep2 : UInt8) (type : TranslationType) (rest : Vars) : Octets :=
  (rest.map (outputVar sep2 type)).flatMap fun printed => sep1 :: printed

theorem printedRest_cons (sep1 sep2 : UInt8) (type : TranslationType) (next : Octets × Octets)
    (rest : Vars) : printedRest sep1 sep2 type (next :: rest) =
      sep1 :: (outputVar sep2 type next ++ printedRest sep1 sep2 type rest) := rfl

/-- All octets are written as they are. -/
def Safe (type : TranslationType) (s : Octets) : Prop := ∀ c ∈ s, c ∈ safeChars type

/-- The variable comes back as a quoted parameter, with others behind it or not. -/
def TameEntry (entry : Octets × Octets) (isLast : Prop) : Prop :=
  (Safe .quotedParameter entry.1 ∧ 61 ∉ entry.1) ∧
    (Safe .quotedParameter entry.2 ∨
      NoEscape entry.2 ∧ (entry.2.getLast? = some 92 → isLast))

/-- The variables come back. -/
def Tame (type : TranslationType) : Vars → Prop
  | [] => True
  | entry :: rest =>
    (type = .quotedParameter → TameEntry entry (rest = [])) ∧ Tame type rest

/-- The separators that the callers use for a kind of variables. -/
inductive Separators : UInt8 → UInt8 → TranslationType → Prop where
  | parameter : Separators 59 61 .parameter
  | query : Separators 38 61 .query
  | quotedParameter : Separators 59 61 .quotedParameter

/-- What the callers print in front of the variables: nothing, the separator, or the question mark
    of a query. -/
def Leads (sep0 sep1 : UInt8) : TranslationType → Prop
  | .query => sep0 = 0 ∨ sep0 = 63
  | _ => sep0 = 0 ∨ sep0 = sep1

/-- What is split of the printed text. The parser cuts the question mark off. -/
def splitText (sep0 : UInt8) (printed : Octets) : Octets :=
  if sep0 = 63 then printed.drop 1 else printed

section Rounds

variable {type : TranslationType} {sep1 sep2 : UInt8} {pre p key data tail : Octets}
  {memory : Nat → UInt8} {fuel : Nat} {vars : Vars}

/-- A separator is behind a variable, or nothing is. -/
def Follows (sep1 : UInt8) (tail : Octets) : Prop := tail = [] ∨ ∃ rest, tail = sep1 :: rest

/-- The place of the separator behind a text, or what stands for it at the end. -/
def Stops (place stop : Nat) (tail : Octets) : Prop :=
  (tail = [] ∧ stop = pMaxIndex - 1) ∨ (tail ≠ [] ∧ stop = place)

theorem nextSeparator_stops (hp : sep1 ∉ p) (htail : Follows sep1 tail)
    (hlen : (pre ++ (p ++ tail)).length < pMaxIndex) :
    Stops (pre.length + p.length) (nextSeparator (pre ++ (p ++ tail)) sep1 pre.length) tail := by
  rcases htail with rfl | ⟨rest, rfl⟩
  · rw [List.append_nil, nextSeparator, if_pos (find_absent pre hp)]
    exact .inl ⟨rfl, rfl⟩
  · have hfind := find_here pre rest hp
    simp only [List.length_append, List.length_cons] at hlen
    rw [nextSeparator, hfind, if_neg (by omega)]
    exact .inr ⟨List.cons_ne_nil _ _, rfl⟩

theorem between_stops {stop k : Nat} (hstop : Stops (pre.length + p.length) stop tail)
    (hlen : (pre ++ (p ++ tail)).length < pMaxIndex) (hk : k ≤ p.length) :
    between (pre ++ (p ++ tail)) (pre.length + k) stop = p.drop k := by
  simp only [List.length_append] at hlen
  rw [between, ← List.drop_drop, List.drop_left, List.drop_append_of_le_length hk]
  rcases hstop with ⟨rfl, rfl⟩ | ⟨-, rfl⟩
  · rw [List.append_nil]
    refine List.take_of_length_le ?_
    rw [List.length_drop]
    omega
  · refine List.take_left' ?_
    rw [List.length_drop]
    omega

/-- The round for a variable leads to the next one. -/
def Advances (memory : Nat → UInt8) (fuel : Nat) (sep1 sep2 : UInt8) (type : TranslationType)
    (pre p tail : Octets) (vars vars' : Vars) : Prop :=
  splitLoop memory fuel (pre ++ (p ++ tail)) sep1 sep2 type pre.length vars =
    if tail = [] then some vars'
    else splitLoop memory fuel (pre ++ (p ++ tail)) sep1 sep2 type (pre.length + p.length + 1) vars'

/-- A round gives the key and the data between its places. -/
theorem advances_of (hlen : (pre ++ (p ++ tail)).length < pMaxIndex)
    (hkey : keyOf (pre ++ (p ++ tail)) pre.length
      (nextSeparator (pre ++ (p ++ tail)) sep1 pre.length) (find (pre ++ (p ++ tail)) sep2 pre.length) = key)
    (hdata : (quotedText (pre ++ (p ++ tail)) (nextSeparator (pre ++ (p ++ tail)) sep1 pre.length)
          (find (pre ++ (p ++ tail)) sep2 pre.length) type = none ∧
        plainText (pre ++ (p ++ tail)) (nextSeparator (pre ++ (p ++ tail)) sep1 pre.length)
          (find (pre ++ (p ++ tail)) sep2 pre.length) type = data) ∨
      ∃ quoted, quotedText (pre ++ (p ++ tail))
          (nextSeparator (pre ++ (p ++ tail)) sep1 pre.length)
          (find (pre ++ (p ++ tail)) sep2 pre.length) type = some quoted ∧
        translateEscapes memory fuel quoted = some data)
    {stop : Nat} (hnext : nextVar (pre ++ (p ++ tail)) sep1 sep2 type pre.length = stop + 1)
    (hstop : Stops (pre.length + p.length) stop tail) :
    Advances memory fuel sep1 sep2 type pre p tail vars (addVar vars key data type) := by
  have hround : splitLoop memory fuel (pre ++ (p ++ tail)) sep1 sep2 type pre.length vars =
      if stop + 1 = pMaxIndex then some (addVar vars key data type)
      else splitLoop memory fuel (pre ++ (p ++ tail)) sep1 sep2 type (stop + 1)
        (addVar vars key data type) := by
    rw [splitLoop.eq_def]
    rcases hdata with ⟨hnone, hplain⟩ | ⟨quoted, hquoted, hread⟩
    · simp only [hnone, hplain, hkey, hnext, dite_eq_ite]
    · simp only [hquoted, hread, hkey, hnext, dite_eq_ite]
  simp only [List.length_append] at hlen
  rw [Advances, hround]
  rcases hstop with ⟨htail, rfl⟩ | ⟨htail, rfl⟩
  · rw [if_pos htail, if_pos (show pMaxIndex - 1 + 1 = pMaxIndex from rfl)]
  · have hpos : 0 < tail.length := List.length_pos_iff.mpr htail
    rw [if_neg htail, if_neg (by omega)]

/-- A key without a value. -/
theorem advances_bare (hp1 : sep1 ∉ p) (hp2 : sep2 ∉ p) (hne : sep1 ≠ sep2)
    (htail : Follows sep1 tail) (hlen : (pre ++ (p ++ tail)).length < pMaxIndex) :
    Advances memory fuel sep1 sep2 type pre p tail vars (addVar vars p [] type) := by
  have hstop := nextSeparator_stops hp1 htail hlen
  -- The other separator is in a later variable or nowhere.
  have hfar : find (pre ++ (p ++ tail)) sep2 pre.length >
      nextSeparator (pre ++ (p ++ tail)) sep1 pre.length := by
    rcases hstop with ⟨hnil, hs⟩ | ⟨hcons, hs⟩
    · rw [hs, hnil, List.append_nil, find_absent pre hp2]
      decide
    · obtain ⟨rest, rfl⟩ := htail.resolve_left hcons
      have hmem : sep2 ∉ p ++ [sep1] := by
        rw [List.mem_append, List.mem_singleton, not_or]
        exact ⟨hp2, Ne.symm hne⟩
      have hbehind := find_behind pre rest hmem
      simp only [List.append_assoc, List.singleton_append, List.length_append,
        List.length_singleton] at hbehind
      simp only [List.length_append, List.length_cons] at hlen
      omega
  have hnone : quotedText (pre ++ (p ++ tail)) (nextSeparator (pre ++ (p ++ tail)) sep1 pre.length)
      (find (pre ++ (p ++ tail)) sep2 pre.length) type = none := by rw [quotedText, if_pos hfar]
  refine advances_of hlen ?_ ?_ ?_ hstop
  · rw [keyOf, if_pos hfar]
    exact between_stops hstop hlen (Nat.zero_le _)
  · exact .inl ⟨hnone, by rw [plainText, if_pos hfar]⟩
  · rw [nextVar, variableEnd, hnone]

theorem skipSpace_head (before rest : Octets) {d : UInt8} (hd : isSpace d = false) :
    skipSpace (before ++ d :: rest) before.length = before.length := by
  rw [skipSpace, List.drop_left, List.takeWhile_cons_of_neg fun h =>
    Bool.false_ne_true (hd.symm.trans h)]
  rfl

/-- A key and a value that is not in quotes. -/
theorem advances_pair (hp : sep1 ∉ key ++ sep2 :: data) (hkey : sep2 ∉ key)
    (hdata : type = .quotedParameter → ∃ d rest, data = d :: rest ∧ isSpace d = false ∧ d ≠ 34)
    (htail : Follows sep1 tail)
    (hlen : (pre ++ ((key ++ sep2 :: data) ++ tail)).length < pMaxIndex) :
    Advances memory fuel sep1 sep2 type pre (key ++ sep2 :: data) tail vars
      (addVar vars key data type) := by
  have hstop := nextSeparator_stops hp htail hlen
  have hsep : find (pre ++ ((key ++ sep2 :: data) ++ tail)) sep2 pre.length =
      pre.length + key.length := by
    rw [List.append_assoc]
    exact find_here pre _ hkey
  have hnear : ¬ find (pre ++ ((key ++ sep2 :: data) ++ tail)) sep2 pre.length >
      nextSeparator (pre ++ ((key ++ sep2 :: data) ++ tail)) sep1 pre.length := by
    rw [hsep]
    simp only [List.length_append, List.length_cons] at hlen hstop
    rcases hstop with ⟨-, hs⟩ | ⟨-, hs⟩ <;> omega
  -- There is no blank to skip, and no quote.
  have hskip : type = .quotedParameter →
      skipSpace (pre ++ ((key ++ sep2 :: data) ++ tail)) (pre.length + key.length + 1) =
        pre.length + key.length + 1 ∧
      charAt (pre ++ ((key ++ sep2 :: data) ++ tail)) (pre.length + key.length + 1) ≠ 34 := by
    intro htype
    obtain ⟨d, rest, rfl, hspace, hd⟩ := hdata htype
    have hcut : pre ++ ((key ++ sep2 :: d :: rest) ++ tail) =
        (pre ++ key ++ [sep2]) ++ d :: (rest ++ tail) := by
      simp only [List.append_assoc, List.cons_append, List.nil_append]
    have hplace : pre.length + key.length + 1 = (pre ++ key ++ [sep2]).length := by
      simp only [List.length_append, List.length_singleton]
    rw [hcut, hplace]
    have hhere := charAt_middle (pre ++ key ++ [sep2]) [] (rest ++ tail) d 0 rfl
    rw [List.nil_append, Nat.add_zero] at hhere
    exact ⟨skipSpace_head _ _ hspace, by rwa [hhere]⟩
  have hdrop : between (pre ++ ((key ++ sep2 :: data) ++ tail)) (pre.length + key.length + 1)
      (nextSeparator (pre ++ ((key ++ sep2 :: data) ++ tail)) sep1 pre.length) = data := by
    have hall := between_stops hstop hlen (k := key.length + 1) (by
      rw [List.length_append, List.length_cons]
      omega)
    rw [Nat.add_assoc, hall, ← List.drop_drop, List.drop_left]
    rfl
  have hnone : quotedText (pre ++ ((key ++ sep2 :: data) ++ tail))
      (nextSeparator (pre ++ ((key ++ sep2 :: data) ++ tail)) sep1 pre.length)
      (find (pre ++ ((key ++ sep2 :: data) ++ tail)) sep2 pre.length) type = none := by
    rw [quotedText, if_neg hnear]
    by_cases htype : type = .quotedParameter
    · rw [if_neg (not_not.mpr htype), hsep, (hskip htype).1, if_neg (hskip htype).2]
    · rw [if_pos htype]
  refine advances_of hlen ?_ ?_ ?_ hstop
  · rw [keyOf, if_neg hnear, hsep, between, List.drop_left, List.append_assoc]
    exact List.take_left' (by omega)
  · refine .inl ⟨hnone, ?_⟩
    rw [plainText, if_neg hnear, hsep]
    by_cases htype : type = .quotedParameter
    · rw [if_neg (not_not.mpr htype), (hskip htype).1, hdrop]
    · rw [if_pos htype, hdrop]
  · rw [nextVar, variableEnd, hnone]

/-- A search from a place that is not behind the result gives the same. -/
theorem findFrom_later {f : UInt8 → Bool} {s : Octets} {i j : Nat} (hij : i ≤ j)
    (hj : j ≤ findFrom f s i) : findFrom f s j = findFrom f s i := by
  induction hij with
  | refl => rfl
  | @step j hij ih =>
      have hsame := ih (Nat.le_of_succ_le hj)
      rw [← hsame] at hj ⊢
      by_cases hin : j < s.length
      · cases hf : f s[j] with
        | false => exact (findFrom_skip hin hf).symm
        | true =>
            rw [findFrom_found hin hf] at hj
            omega
      · rw [findFrom, findFrom, List.drop_eq_nil_of_le (by omega),
          List.drop_eq_nil_of_le (by omega)]
        rfl

theorem nextSeparator_later {s : Octets} {i j : Nat} (hij : i ≤ j) (hmax : j < pMaxIndex)
    (hj : j ≤ nextSeparator s sep1 i) : nextSeparator s sep1 j = nextSeparator s sep1 i := by
  have hle : j ≤ find s sep1 i := by
    rw [nextSeparator] at hj
    split at hj <;> omega
  have hsame : find s sep1 j = find s sep1 i := findFrom_later hij hle
  rw [nextSeparator, nextSeparator, hsame]

/-- A key and a value in quotes. -/
theorem advances_quoted {v : Octets} (hv : v ≠ []) (hnul : 0 ∉ v) (hkey1 : sep1 ∉ key)
    (hkey2 : sep2 ∉ key) (hquote : sep1 ≠ 34)
    (hlast : v.getLast? = some 92 → tail = []) (hfuel : v.length < fuel)
    (htail : Follows sep1 tail)
    (hlen : (pre ++ ((key ++ sep2 :: toLiteral v) ++ tail)).length < pMaxIndex) :
    Advances memory fuel sep1 sep2 .quotedParameter pre (key ++ sep2 :: toLiteral v) tail vars
      (addVar vars key v .quotedParameter) := by
  -- The search for the end quote starts behind the first octet in the quotes, and there is one.
  obtain ⟨q, w, hbody⟩ : ∃ q w, v.flatMap literalOctet = q :: w :=
    List.exists_cons_of_length_pos
      (Nat.lt_of_lt_of_le (List.length_pos_iff.mpr hv) (length_le_forms v))
  have hliteral : toLiteral v = 34 :: (q :: (w ++ [34])) := by
    rw [toLiteral, hbody]
    rfl
  obtain ⟨str, hstr⟩ : ∃ str, str = pre ++ ((key ++ sep2 :: toLiteral v) ++ tail) := ⟨_, rfl⟩
  -- The same text, cut at each of the places that the round comes to.
  have hkeyCut : str = pre ++ (key ++ sep2 :: (toLiteral v ++ tail)) := by
    rw [hstr, List.append_assoc, List.cons_append]
  have hopen : str = (pre ++ key ++ [sep2]) ++ 34 :: (q :: (w ++ 34 :: tail)) := by
    rw [hstr, hliteral]
    simp only [List.append_assoc, List.cons_append, List.nil_append]
  have hinside : str = (pre ++ key ++ [sep2, 34]) ++ (q :: (w ++ 34 :: tail)) := by
    rw [hopen]
    simp only [List.append_assoc, List.cons_append, List.nil_append]
  have hclose : str = ((pre ++ key ++ [sep2, 34]) ++ q :: w) ++ ([34] ++ tail) := by
    rw [hinside]
    simp only [List.append_assoc, List.cons_append, List.nil_append]
  have hplace : pre.length + key.length + 1 = (pre ++ key ++ [sep2]).length := by
    simp only [List.length_append, List.length_singleton]
  have hbegin : pre.length + key.length + 1 + 1 = (pre ++ key ++ [sep2, 34]).length := by
    simp only [List.length_append, List.length_cons, List.length_nil]
  have hstop : pre.length + key.length + 1 + 1 + 1 + w.length =
      ((pre ++ key ++ [sep2, 34]) ++ q :: w).length := by
    simp only [List.length_append, List.length_cons, List.length_nil]
    omega
  have hsize : str.length = pre.length + key.length + w.length + 4 + tail.length := by
    rw [hclose]
    simp only [List.length_append, List.length_cons, List.length_nil]
    omega
  rw [← hstr] at hlen
  have hsep : find str sep2 pre.length = pre.length + key.length := by
    rw [hkeyCut]
    exact find_here pre _ hkey2
  have hnear : ¬ find str sep2 pre.length > nextSeparator str sep1 pre.length := by
    have hbehind := find_behind pre (sep2 :: (toLiteral v ++ tail)) hkey1
    rw [← hkeyCut] at hbehind
    rw [hsep, nextSeparator]
    split <;> omega
  have hskip : skipSpace str (pre.length + key.length + 1) = pre.length + key.length + 1 := by
    rw [hopen, hplace]
    exact skipSpace_head _ _ (by decide)
  have hchar : charAt str (pre.length + key.length + 1) = 34 := by
    rw [hopen, hplace]
    exact charAt_middle (pre ++ key ++ [sep2]) [] _ 34 0 rfl
  have hhidden : Hidden (q :: w) := by
    have hall := hidden_literal v 34
    rw [hbody, Hidden, List.isChain_cons_cons] at hall
    exact hall.2
  have hend : endQuoteLoop str (pre.length + key.length + 1 + 1) =
      pre.length + key.length + 1 + 1 + 1 + w.length := by
    rw [hinside, hbegin]
    refine endQuoteLoop_eq (w.length + 1) w _ q (Nat.lt_succ_self _) hhidden (fun h => ?_)
      (by rwa [← hinside])
    refine hlast (Decidable.byContradiction fun hother => ?_)
    exact getLast_literal hv hother (by rw [hbody, h])
  have hquoted : quotedText str (nextSeparator str sep1 pre.length) (find str sep2 pre.length)
      .quotedParameter = some (toLiteral v) := by
    rw [quotedText, if_neg hnear, if_neg (not_not.mpr rfl), hsep, hskip, if_pos hchar, hend,
      between]
    have hdrop : str.drop (pre.length + key.length + 1) = toLiteral v ++ tail := by
      rw [hopen, hplace, List.drop_left, hliteral]
      simp only [List.append_assoc, List.cons_append, List.nil_append]
    rw [hdrop, List.take_left']
    rw [hliteral]
    simp only [List.length_append, List.length_cons, List.length_nil]
    omega
  -- A separator in the quotes is passed over, and one behind them is found anyway.
  have hnext : nextVar str sep1 sep2 .quotedParameter pre.length =
      nextSeparator str sep1 (pre.length + key.length + 1 + 1 + 1 + w.length) + 1 := by
    rw [nextVar, variableEnd, hquoted]
    simp only [hsep, hskip, hend]
    by_cases hlt : nextSeparator str sep1 pre.length <
        pre.length + key.length + 1 + 1 + 1 + w.length
    · rw [if_pos hlt]
    · rw [if_neg hlt, nextSeparator_later (by omega) (by omega) (Nat.not_lt.mp hlt)]
  have hstops : Stops (pre.length + (key ++ sep2 :: toLiteral v).length)
      (nextSeparator str sep1 (pre.length + key.length + 1 + 1 + 1 + w.length)) tail := by
    have hquoteEnd : sep1 ∉ [(34 : UInt8)] := fun h => hquote (List.mem_singleton.mp h)
    have h := @nextSeparator_stops sep1 ((pre ++ key ++ [sep2, 34]) ++ q :: w) _ tail hquoteEnd
      htail (by rwa [← hclose])
    rw [← hclose, ← hstop] at h
    have hsame : pre.length + (key ++ sep2 :: toLiteral v).length =
        pre.length + key.length + 1 + 1 + 1 + w.length + [(34 : UInt8)].length := by
      rw [hliteral]
      simp only [List.length_append, List.length_cons, List.length_nil]
      omega
    rwa [hsame]
  subst hstr
  refine advances_of hlen ?_ ?_ hnext hstops
  · rw [keyOf, if_neg hnear, hsep, between, List.drop_left, List.append_assoc]
    exact List.take_left' (by omega)
  · exact .inr ⟨_, hquoted, translateEscapes_literal v hnul hfuel⟩

end Rounds

section Written

variable {type : TranslationType} {sep1 sep2 : UInt8} {s pre tail : Octets}
  {memory : Nat → UInt8} {fuel : Nat} {vars : Vars} {entry : Octets × Octets}

theorem translate_escaped (htype : type ≠ .quotedParameter)
    (hlen : (translateString s type).length < pMaxIndex) :
    translateString s type = s.flatMap (escaped type) := by
  rw [translateString, if_neg htype] at hlen ⊢
  exact escapeLoop_eq s [] hlen

theorem untranslate_translate (htype : type ≠ .quotedParameter) (hpercent : 37 ∉ safeChars type)
    (hplus : type = .query → 43 ∉ safeChars type)
    (hlen : (translateString s type).length < pMaxIndex) :
    untranslateString (translateString s type) type = s := by
  have hwritten := translate_escaped htype hlen
  rw [hwritten] at hlen ⊢
  have hsame : (if type = .query then plusLoop (s.flatMap (escaped type)) 0
      else s.flatMap (escaped type)) = s.flatMap (escaped type) := by
    split
    next hquery => exact plusLoop_absent (not_mem_escaped (hplus hquery) (by decide))
    next => rfl
  rw [untranslateString, hsame]
  exact percentLoop_escaped hpercent s [] (by rwa [List.length_nil, Nat.zero_add])

theorem untranslate_quoted (h : NoEscape s) : untranslateString s .quotedParameter = s := by
  rw [untranslateString, if_neg (by decide)]
  exact percentLoop_noEscape h 0

theorem noEscape_of_absent (h : 37 ∉ s) : NoEscape s := by
  intro i hi
  rw [charAt, List.getD_eq_getElem?_getD] at hi
  cases hc : s[i]? with
  | none =>
      rw [hc] at hi
      exact absurd hi (by decide)
  | some c =>
      rw [hc, Option.getD_some] at hi
      exact absurd (hi ▸ List.mem_of_getElem? hc) h

theorem safe_translate (h : Safe .quotedParameter s) :
    translateString s .quotedParameter = s := by
  rw [translateString, if_pos rfl, if_pos]
  have hnone : s.findIdx? (fun x => decide (x ∉ safeChars .quotedParameter)) = none :=
    List.findIdx?_eq_none_iff.mpr fun x hx => decide_eq_false fun hmem => hmem (h x hx)
  rw [findSpan_eq, findFrom, List.drop_zero, hnone]

theorem unsafe_translate (h : ¬ Safe .quotedParameter s)
    (hlen : (translateString s .quotedParameter).length < pMaxIndex) :
    translateString s .quotedParameter = toLiteral s := by
  rw [translateString, if_pos rfl] at hlen ⊢
  by_cases hspan : findSpan s (safeChars .quotedParameter) 0 = pMaxIndex
  · rw [if_pos hspan] at hlen
    rw [findSpan_eq, findFrom, List.drop_zero] at hspan
    cases hidx : s.findIdx? (fun x => decide (x ∉ safeChars .quotedParameter)) with
    | none =>
        refine absurd (fun c hc => ?_) h
        exact not_not.mp (of_decide_eq_false (List.findIdx?_eq_none_iff.mp hidx c hc))
    | some k =>
        obtain ⟨hlt, -⟩ := List.findIdx?_eq_some_iff_getElem.1 hidx
        rw [hidx] at hspan
        dsimp only at hspan
        omega
  · rw [if_neg hspan]

theorem separators_spec (h : Separators sep1 sep2 type) :
    (sep1 ≠ sep2 ∧ sep1 ≠ 34 ∧ sep1 ≠ 37 ∧ sep2 ≠ 37) ∧ sep1 ∉ safeChars type ∧
      37 ∉ safeChars type ∧ (type = .query → 43 ∉ safeChars type) ∧
      (type ≠ .quotedParameter → sep2 ∉ safeChars type) ∧
      (type = .quotedParameter → sep2 = 61) := by
  cases h with
  | parameter => decide
  | query => decide
  | quotedParameter => decide

/-- No safe octet is a blank or a quote. -/
theorem safe_plain : ∀ c ∈ safeChars .quotedParameter, isSpace c = false ∧ c ≠ 34 := by
  have hall : ((safeChars .quotedParameter).all fun c => decide (isSpace c = false ∧ c ≠ 34)) =
      true := by decide
  exact fun c hc => of_decide_eq_true (List.all_eq_true.mp hall c hc)

theorem addVar_new {key data : Octets} (hkey : untranslateString key type = entry.1)
    (hdata : untranslateString data type = entry.2) (hne : entry.1 ≠ [])
    (hnew : vars.at? entry.1 = none) : addVar vars key data type = vars ++ [entry] := by
  rw [addVar, hkey, hdata]
  simp only [if_neg hne, hnew]
  rw [Vars.setAt, hnew, if_neg (by decide)]

theorem untranslate_nil (type : TranslationType) : untranslateString [] type = [] := by
  have hplus : plusLoop [] 0 = [] := plusLoop_absent List.not_mem_nil
  have hpercent : percentLoop [] 0 = [] :=
    percentLoop_noEscape (noEscape_of_absent List.not_mem_nil) 0
  rw [untranslateString, hplus, ite_self, hpercent]

/-- A key and a value are written with a separator between them, unless there is no value. -/
theorem outputVar_eq (hkey : translateString entry.1 type ≠ []) :
    outputVar sep2 type entry =
      if translateString entry.2 type = [] then translateString entry.1 type
      else translateString entry.1 type ++ sep2 :: translateString entry.2 type := if_neg hkey

theorem length_key_le (sep2 : UInt8) (type : TranslationType) (entry : Octets × Octets) :
    (translateString entry.1 type).length ≤ (outputVar sep2 type entry).length ∧
      (translateString entry.2 type).length ≤ (outputVar sep2 type entry).length := by
  rw [outputVar]
  split
  next h => exact ⟨by rw [h]; exact Nat.zero_le _, Nat.le_refl _⟩
  next =>
    split
    next h => exact ⟨Nat.le_refl _, by rw [h]; exact Nat.zero_le _⟩
    next =>
      rw [List.length_append, List.length_cons]
      exact ⟨by omega, by omega⟩

/-- A variable that is written with escapes. -/
theorem entry_escaped (hsep : Separators sep1 sep2 type) (htype : type ≠ .quotedParameter)
    (hne : entry.1 ≠ []) (htail : Follows sep1 tail)
    (hlen : (pre ++ (outputVar sep2 type entry ++ tail)).length < pMaxIndex)
    (hnew : vars.at? entry.1 = none) :
    Advances memory fuel sep1 sep2 type pre (outputVar sep2 type entry) tail vars
      (vars ++ [entry]) := by
  obtain ⟨⟨hsep12, -, h1, h2⟩, hsafe1, hpercent, hplus, hsafe2, -⟩ := separators_spec hsep
  have hbounds := length_key_le sep2 type entry
  have hlength := hlen
  simp only [List.length_append] at hlength
  have hkeyLen : (translateString entry.1 type).length < pMaxIndex := by omega
  have hdataLen : (translateString entry.2 type).length < pMaxIndex := by omega
  have hkey := untranslate_translate htype hpercent hplus hkeyLen
  have hdata := untranslate_translate htype hpercent hplus hdataLen
  -- Both separators are escaped, and so is the percent sign.
  have habsent : ∀ {s : Octets}, (translateString s type).length < pMaxIndex →
      sep1 ∉ translateString s type ∧ sep2 ∉ translateString s type := by
    intro s hs
    rw [translate_escaped htype hs]
    exact ⟨not_mem_escaped hsafe1 h1, not_mem_escaped (hsafe2 htype) h2⟩
  have hwritten : translateString entry.1 type ≠ [] := by
    intro hnil
    rw [hnil, untranslate_nil] at hkey
    exact hne hkey.symm
  rw [outputVar_eq hwritten] at hlen ⊢
  by_cases hnil : translateString entry.2 type = []
  · rw [if_pos hnil] at hlen ⊢
    have hround := @advances_bare type sep1 sep2 pre _ tail memory fuel vars (habsent hkeyLen).1
      (habsent hkeyLen).2 hsep12 htail hlen
    rw [hnil] at hdata
    rwa [addVar_new hkey hdata hne hnew] at hround
  · rw [if_neg hnil] at hlen ⊢
    have hmem : sep1 ∉ translateString entry.1 type ++ sep2 :: translateString entry.2 type := by
      rw [List.mem_append, List.mem_cons, not_or, not_or]
      exact ⟨(habsent hkeyLen).1, hsep12, (habsent hdataLen).1⟩
    have hround := @advances_pair type sep1 sep2 pre _ _ tail memory fuel vars hmem
      (habsent hkeyLen).2 (fun h => absurd h htype) htail hlen
    rwa [addVar_new hkey hdata hne hnew] at hround

/-- A quoted parameter. -/
theorem entry_quoted (hsep : Separators sep1 sep2 .quotedParameter) (hne : entry.1 ≠ [])
    (hnul : 0 ∉ entry.2) (htame : TameEntry entry (tail = [])) (htail : Follows sep1 tail)
    (hlen : (pre ++ (outputVar sep2 .quotedParameter entry ++ tail)).length < pMaxIndex)
    (hfuel : (outputVar sep2 .quotedParameter entry).length < fuel)
    (hnew : vars.at? entry.1 = none) :
    Advances memory fuel sep1 sep2 .quotedParameter pre (outputVar sep2 .quotedParameter entry) tail
      vars (vars ++ [entry]) := by
  obtain ⟨⟨hsep12, hquote, -, -⟩, hsafe1, hpercent, -, -, h61⟩ := separators_spec hsep
  obtain ⟨⟨hsafe, heq⟩, hvalue⟩ := htame
  have hbounds := length_key_le sep2 .quotedParameter entry
  have hlength := hlen
  simp only [List.length_append] at hlength
  have hdataLen : (translateString entry.2 .quotedParameter).length < pMaxIndex := by omega
  have hkey1 : sep1 ∉ entry.1 := fun h => hsafe1 (hsafe sep1 h)
  have hkey2 : sep2 ∉ entry.1 := by rwa [h61 rfl]
  -- A key that is written as it is has neither an escape nor a separator.
  have hkey : untranslateString entry.1 .quotedParameter = entry.1 :=
    untranslate_quoted (noEscape_of_absent fun h => hpercent (hsafe 37 h))
  have hwritten : translateString entry.1 .quotedParameter ≠ [] := by rwa [safe_translate hsafe]
  rw [outputVar_eq hwritten, safe_translate hsafe] at hlen hfuel ⊢
  by_cases hdataSafe : Safe .quotedParameter entry.2
  · have hdata : untranslateString entry.2 .quotedParameter = entry.2 :=
      untranslate_quoted (noEscape_of_absent fun h => hpercent (hdataSafe 37 h))
    rw [safe_translate hdataSafe] at hlen ⊢
    by_cases hnil : entry.2 = []
    · rw [if_pos hnil] at hlen ⊢
      have hround := @advances_bare .quotedParameter sep1 sep2 pre _ tail memory fuel vars hkey1
        hkey2 hsep12 htail hlen
      rw [hnil] at hdata
      rwa [addVar_new hkey (hdata.trans hnil.symm) hne hnew] at hround
    · rw [if_neg hnil] at hlen ⊢
      have hmem : sep1 ∉ entry.1 ++ sep2 :: entry.2 := by
        rw [List.mem_append, List.mem_cons, not_or, not_or]
        exact ⟨hkey1, hsep12, fun h => hsafe1 (hdataSafe sep1 h)⟩
      obtain ⟨d, rest, hcons⟩ := List.exists_cons_of_ne_nil hnil
      have hplain := safe_plain d (hdataSafe d (by rw [hcons]; exact List.mem_cons_self))
      have hround := @advances_pair .quotedParameter sep1 sep2 pre _ _ tail memory fuel vars hmem
        hkey2 (fun _ => ⟨d, rest, hcons, hplain.1, hplain.2⟩) htail hlen
      rwa [addVar_new hkey hdata hne hnew] at hround
  · obtain ⟨hescape, hback⟩ := hvalue.resolve_left hdataSafe
    have hdata := untranslate_quoted hescape
    have hcons : entry.2 ≠ [] := by
      intro hnil
      rw [hnil] at hdataSafe
      exact hdataSafe fun c hc => absurd hc List.not_mem_nil
    have hnil : toLiteral entry.2 ≠ [] := List.cons_ne_nil _ _
    rw [unsafe_translate hdataSafe hdataLen, if_neg hnil] at hlen hfuel ⊢
    have hshort : entry.2.length < fuel := by
      have hle : entry.2.length ≤ (toLiteral entry.2).length := by
        have hforms := length_le_forms entry.2
        rw [toLiteral, List.length_append, List.length_cons]
        omega
      rw [List.length_append, List.length_cons] at hfuel
      omega
    have hround := @advances_quoted sep1 sep2 pre entry.1 tail memory fuel vars entry.2 hcons hnul
      hkey1 hkey2 hquote hback hshort htail hlen
    rwa [addVar_new hkey hdata hne hnew] at hround

theorem at?_append {key : Octets} (h : vars.at? key = none)
    (hother : sameCaseless entry.1 key = false) : Vars.at? (vars ++ [entry]) key = none := by
  rw [Vars.at?, Option.map_eq_none_iff] at h ⊢
  rw [List.find?_append, h, Option.none_or, List.find?_singleton, hother]
  rfl

/-- The variables from one on come back. The induction is on those behind it. -/
theorem splitLoop_entries (hsep : Separators sep1 sep2 type) (rest : Vars) : ∀ entry pre vars,
    (∀ e ∈ entry :: rest, e.1 ≠ [] ∧ 0 ∉ e.2) →
    (entry :: rest).Pairwise (fun a b => sameCaseless a.1 b.1 = false) →
    (∀ e ∈ entry :: rest, Vars.at? vars e.1 = none) → Tame type (entry :: rest) →
    (pre ++ (outputVar sep2 type entry ++ printedRest sep1 sep2 type rest)).length < pMaxIndex →
    (pre ++ (outputVar sep2 type entry ++ printedRest sep1 sep2 type rest)).length < fuel →
    splitLoop memory fuel (pre ++ (outputVar sep2 type entry ++ printedRest sep1 sep2 type rest))
      sep1 sep2 type pre.length vars = some (vars ++ entry :: rest) := by
  induction rest with
  | nil =>
      intro entry pre vars hkeys _ hnew htame hlen hfuel
      have hentry := hkeys entry List.mem_cons_self
      have hround : Advances memory fuel sep1 sep2 type pre (outputVar sep2 type entry) [] vars
          (vars ++ [entry]) := by
        by_cases htype : type = .quotedParameter
        · subst htype
          refine entry_quoted hsep hentry.1 hentry.2 ?_ (.inl rfl) hlen ?_
            (hnew entry List.mem_cons_self)
          · exact ⟨(htame.1 rfl).1, (htame.1 rfl).2.imp_right fun h => ⟨h.1, fun _ => rfl⟩⟩
          · rw [List.length_append, List.length_append] at hfuel
            omega
        · exact entry_escaped hsep htype hentry.1 (.inl rfl) hlen (hnew entry List.mem_cons_self)
      rw [Advances, if_pos rfl] at hround
      exact hround
  | cons next rest ih =>
      intro entry pre vars hkeys hdistinct hnew htame hlen hfuel
      have hentry := hkeys entry List.mem_cons_self
      have hfollows : Follows sep1 (printedRest sep1 sep2 type (next :: rest)) := .inr ⟨_, rfl⟩
      have hround : Advances memory fuel sep1 sep2 type pre (outputVar sep2 type entry)
          (printedRest sep1 sep2 type (next :: rest)) vars (vars ++ [entry]) := by
        by_cases htype : type = .quotedParameter
        · subst htype
          refine entry_quoted hsep hentry.1 hentry.2 ?_ hfollows hlen ?_
            (hnew entry List.mem_cons_self)
          · refine ⟨(htame.1 rfl).1, (htame.1 rfl).2.imp_right fun h => ⟨h.1, fun hlast => ?_⟩⟩
            exact absurd (h.2 hlast) (List.cons_ne_nil _ _)
          · rw [List.length_append, List.length_append] at hfuel
            omega
        · exact entry_escaped hsep htype hentry.1 hfollows hlen (hnew entry List.mem_cons_self)
      have hcut : pre ++ (outputVar sep2 type entry ++ printedRest sep1 sep2 type (next :: rest)) =
          (pre ++ outputVar sep2 type entry ++ [sep1]) ++
            (outputVar sep2 type next ++ printedRest sep1 sep2 type rest) := by
        rw [printedRest_cons]
        simp only [List.append_assoc, List.cons_append, List.nil_append]
      have hplace : pre.length + (outputVar sep2 type entry).length + 1 =
          (pre ++ outputVar sep2 type entry ++ [sep1]).length := by
        simp only [List.length_append, List.length_singleton]
      rw [Advances, if_neg (by rw [printedRest_cons]; exact List.cons_ne_nil _ _)] at hround
      rw [hround, hcut, hplace, ih next _ (vars ++ [entry])
        (fun e he => hkeys e (List.mem_cons_of_mem _ he)) hdistinct.of_cons (fun e he => ?_) htame.2
        (by rwa [← hcut]) (by rwa [← hcut]), List.append_assoc]
      · rfl
      · exact at?_append (hnew e (List.mem_cons_of_mem _ he))
          (List.rel_of_pairwise_cons hdistinct he)

end Written

section Order

variable {vars : Vars}

/-- The buckets in front of one have the variables with a smaller number. -/
theorem buckets_perm (vars : Vars) (n : Nat) :
    ((List.range n).flatMap fun bucket =>
        vars.filter fun entry => hashFunction entry.1 = bucket).Perm
      (vars.filter fun entry => hashFunction entry.1 < n) := by
  induction n with
  | zero =>
      have hnone : vars.filter (fun entry => hashFunction entry.1 < 0) = [] :=
        List.filter_eq_nil_iff.mpr fun _ _ h => absurd (of_decide_eq_true h) (Nat.not_lt_zero _)
      rw [hnone]
      exact .refl _
  | succ n ih =>
      have hless : (vars.filter fun entry => decide (hashFunction entry.1 < n + 1)).filter
          (fun entry => decide (hashFunction entry.1 < n)) =
          vars.filter fun entry => decide (hashFunction entry.1 < n) := by
        rw [List.filter_filter]
        refine List.filter_congr fun entry _ => ?_
        rw [← Bool.decide_and]
        exact decide_eq_decide.mpr ⟨fun h => h.1, fun h => ⟨h, Nat.lt_succ_of_lt h⟩⟩
      have hhere : (vars.filter fun entry => decide (hashFunction entry.1 < n + 1)).filter
          (fun entry => !decide (hashFunction entry.1 < n)) =
          vars.filter fun entry => decide (hashFunction entry.1 = n) := by
        rw [List.filter_filter]
        refine List.filter_congr fun entry _ => ?_
        rw [← decide_not, ← Bool.decide_and]
        exact decide_eq_decide.mpr (by omega)
      have hparts := List.filter_append_perm (fun entry => decide (hashFunction entry.1 < n))
        (vars.filter fun entry => decide (hashFunction entry.1 < n + 1))
      rw [hless, hhere] at hparts
      rw [List.range_succ, List.flatMap_append, List.flatMap_singleton]
      exact (ih.append_right _).trans hparts

theorem hashFunction_lt (key : Octets) : hashFunction key < 127 := Nat.mod_lt _ (by decide)

theorem inOrder_perm (vars : Vars) : vars.inOrder.Perm vars := by
  have hall : vars.filter (fun entry => hashFunction entry.1 < 127) = vars :=
    List.filter_eq_self.mpr fun entry _ => decide_eq_true (hashFunction_lt entry.1)
  have hperm := buckets_perm vars 127
  rwa [hall] at hperm

/-- Keys that are distinct in one order are so in another. -/
theorem inOrder_distinct (h : vars.Pairwise fun a b => sameCaseless a.1 b.1 = false) :
    vars.inOrder.Pairwise fun a b => sameCaseless a.1 b.1 = false := by
  refine ((inOrder_perm vars).symm.pairwise_iff fun {a b} hab => ?_).mp h
  rw [sameCaseless, decide_eq_false_iff_not] at hab ⊢
  exact Ne.symm hab

theorem outputVars_eq {entry : Octets × Octets} {rest : Vars} (h : vars.inOrder = entry :: rest)
    (sep0 sep1 sep2 : UInt8) (type : TranslationType) :
    outputVars vars sep0 sep1 sep2 type = (if sep0 = 0 then [] else [sep0]) ++
      (outputVar sep2 type entry ++ printedRest sep1 sep2 type rest) := by
  rw [outputVars, h, List.map_cons, ← List.append_assoc]
  rfl

end Order

/-- What is split are the variables, with or without a separator in front. -/
theorem splitText_eq {sep0 sep1 sep2 : UInt8} {type : TranslationType} {printed : Octets}
    (hsep : Separators sep1 sep2 type) (hlead : Leads sep0 sep1 type) :
    splitText sep0 ((if sep0 = 0 then [] else [sep0]) ++ printed) = printed ∨
      splitText sep0 ((if sep0 = 0 then [] else [sep0]) ++ printed) = sep1 :: printed := by
  cases hsep with
  | parameter =>
      rcases hlead with rfl | rfl
      · exact .inl rfl
      · exact .inr rfl
  | query =>
      rcases hlead with rfl | rfl
      · exact .inl rfl
      · exact .inl rfl
  | quotedParameter =>
      rcases hlead with rfl | rfl
      · exact .inl rfl
      · exact .inr rfl

/-- A separator in front makes an empty variable, which is left out. -/
theorem splitVars_lead {sep1 sep2 : UInt8} {type : TranslationType} {printed : Octets}
    {memory : Nat → UInt8} {fuel : Nat} (hne : sep1 ≠ sep2)
    (hlen : (sep1 :: printed).length < pMaxIndex) :
    splitVars memory fuel (sep1 :: printed) sep1 sep2 type =
      splitLoop memory fuel ([sep1] ++ printed) sep1 sep2 type [sep1].length [] := by
  have hempty : addVar [] [] [] type = [] := by
    rw [addVar, untranslate_nil]
    rfl
  have hround := @advances_bare type sep1 sep2 [] [] (sep1 :: printed) memory fuel []
    List.not_mem_nil List.not_mem_nil hne (.inr ⟨_, rfl⟩) hlen
  rw [Advances, if_neg (List.cons_ne_nil _ _), hempty] at hround
  exact hround

/-- What is printed is read in the order in which it is printed. -/
theorem splitVars_inOrder {sep0 sep1 sep2 : UInt8} {type : TranslationType} {vars : Vars}
    {memory : Nat → UInt8} {fuel : Nat} (hsep : Separators sep1 sep2 type)
    (hlead : Leads sep0 sep1 type) (hkeys : ∀ e ∈ vars, e.1 ≠ [] ∧ 0 ∉ e.2)
    (hdistinct : vars.Pairwise fun a b => sameCaseless a.1 b.1 = false)
    (htame : Tame type vars.inOrder)
    (hlen : (outputVars vars sep0 sep1 sep2 type).length < pMaxIndex)
    (hfuel : (outputVars vars sep0 sep1 sep2 type).length < fuel) :
    splitVars memory fuel (splitText sep0 (outputVars vars sep0 sep1 sep2 type)) sep1 sep2 type =
      some vars.inOrder := by
  obtain ⟨⟨hsep12, -, -, -⟩, -⟩ := separators_spec hsep
  have hshort : (splitText sep0 (outputVars vars sep0 sep1 sep2 type)).length ≤
      (outputVars vars sep0 sep1 sep2 type).length := by
    rw [splitText]
    split
    · rw [List.length_drop]
      exact Nat.sub_le _ _
    · exact Nat.le_refl _
  have hkeys' : ∀ e ∈ vars.inOrder, e.1 ≠ [] ∧ 0 ∉ e.2 :=
    fun e he => hkeys e ((inOrder_perm vars).mem_iff.mp he)
  have hdistinct' := inOrder_distinct hdistinct
  cases hvars : vars.inOrder with
  | nil =>
      have hprinted : outputVars vars sep0 sep1 sep2 type = [] := by
        rw [outputVars, hvars]
        rfl
      have hempty : addVar [] [] [] type = [] := by
        rw [addVar, untranslate_nil]
        rfl
      have hround := @advances_bare type sep1 sep2 [] [] [] memory fuel [] List.not_mem_nil
        List.not_mem_nil hsep12 (.inl rfl) (by decide)
      rw [Advances, if_pos rfl, hempty] at hround
      rw [hprinted, splitText, List.drop_nil, ite_self]
      exact hround
  | cons entry rest =>
      rw [hvars] at hkeys' hdistinct' htame
      have hnew : ∀ e ∈ entry :: rest, Vars.at? [] e.1 = none := fun _ _ => rfl
      have hcut := @splitText_eq _ _ _ _
        (outputVar sep2 type entry ++ printedRest sep1 sep2 type rest) hsep hlead
      rw [← outputVars_eq hvars] at hcut
      rcases hcut with hcut | hcut
      · rw [hcut] at hshort ⊢
        exact splitLoop_entries hsep rest entry [] [] hkeys' hdistinct' hnew htame
          (Nat.lt_of_le_of_lt hshort hlen) (Nat.lt_of_le_of_lt hshort hfuel)
      · rw [hcut] at hshort ⊢
        rw [splitVars_lead hsep12 (Nat.lt_of_le_of_lt hshort hlen)]
        exact splitLoop_entries hsep rest entry [sep1] [] hkeys' hdistinct' hnew htame
          (Nat.lt_of_le_of_lt hshort hlen) (Nat.lt_of_le_of_lt hshort hfuel)

/-- The variables come back from parameters and queries, and from quoted parameters if their keys
    are written as they are and have no equals sign, and none of their values in quotes looks like
    an escape or ends, with other variables behind it, with a backslash. -/
theorem splitVars_outputVars {sep0 sep1 sep2 : UInt8} {type : TranslationType}
    (hsep : Separators sep1 sep2 type) (hlead : Leads sep0 sep1 type) (vars : Vars)
    (hkeys : ∀ e ∈ vars, e.1 ≠ [] ∧ 0 ∉ e.2)
    (hdistinct : vars.Pairwise fun a b => sameCaseless a.1 b.1 = false)
    (htame : Tame type vars.inOrder)
    (hlen : (outputVars vars sep0 sep1 sep2 type).length < pMaxIndex) (memory : Nat → UInt8)
    (fuel : Nat) (hfuel : (outputVars vars sep0 sep1 sep2 type).length < fuel) :
    ∃ read, splitVars memory fuel (splitText sep0 (outputVars vars sep0 sep1 sep2 type)) sep1 sep2
      type = some read ∧ read.Perm vars :=
  ⟨vars.inOrder, splitVars_inOrder hsep hlead hkeys hdistinct htame hlen hfuel, inOrder_perm vars⟩

/-- A value that is written in quotes, and another one behind it. -/
def quotedVars : Vars := [([97], [32]), ([98], [99])]

theorem splitVars_outputVars_quoted :
    ∃ read, splitVars (fun _ => 0) 100
      (splitText 59 (outputVars quotedVars 59 59 61 .quotedParameter)) 59 61 .quotedParameter =
        some read ∧ read.Perm quotedVars := by
  have hsafe : ∀ c : UInt8, c ∈ safeChars .quotedParameter → Safe .quotedParameter [c] :=
    fun c hc x hx => List.mem_singleton.mp hx ▸ hc
  have horder : quotedVars.inOrder = quotedVars := by decide +kernel
  have htame : Tame .quotedParameter quotedVars.inOrder := by
    rw [horder]
    refine ⟨fun _ => ⟨⟨hsafe 97 (by decide), by decide⟩, .inr ⟨noEscape_of_absent (by decide), ?_⟩⟩,
      fun _ => ⟨⟨hsafe 98 (by decide), by decide⟩, .inl (hsafe 99 (by decide))⟩, trivial⟩
    exact fun h => absurd h (by decide)
  exact splitVars_outputVars .quotedParameter (.inr rfl) _ (by decide) (by decide) htame
    (by decide +kernel) _ _ (by decide +kernel)

/-- A value that looks like an escape. -/
def escapeVars : Vars := [([97], [37, 52, 49])]

/-- It is read as the octet of the escape. -/
theorem not_escape_returned :
    ¬ ∃ read, splitVars (fun _ => 0) 100
      (splitText 59 (outputVars escapeVars 59 59 61 .quotedParameter)) 59 61 .quotedParameter =
        some read ∧ read.Perm escapeVars := by
  have hwritten : splitText 59 (outputVars escapeVars 59 59 61 .quotedParameter) =
      59 :: (([97] ++ 61 :: toLiteral [37, 52, 49]) ++ []) := by decide +kernel
  -- The literal is read right, and then its text is read once more.
  have hround := @advances_quoted 59 61 [59] [97] [] (fun _ => 0) 100 [] [37, 52, 49] (by decide)
    (by decide) (by decide) (by decide) (by decide) (fun _ => rfl) (by decide) (.inl rfl)
    (by decide)
  have hkey : untranslateString [97] .quotedParameter = [97] :=
    untranslate_quoted (noEscape_of_absent (by decide))
  have hdata : untranslateString [37, 52, 49] .quotedParameter = [65] := by
    have hescape : ([37, 52, 49] : Octets) = [] ++ (escapeOf 65 ++ []) := by decide
    rw [untranslateString, if_neg (by decide), hescape]
    exact (percentLoop_escape [] [] 65 (by decide)).trans
      (percentLoop_noEscape (noEscape_of_absent (by decide)) _)
  rw [Advances, if_pos rfl,
    @addVar_new .quotedParameter [] ([97], [65]) _ _ hkey hdata (by decide) rfl] at hround
  rintro ⟨read, hread, hperm⟩
  rw [hwritten, splitVars_lead (by decide) (by decide)] at hread
  have hsame : [([97], [65])] = read := Option.some.inj (hround.symm.trans hread)
  have hmem : (([97], [65]) : Octets × Octets) ∈ escapeVars :=
    hperm.mem_iff.mp (hsame ▸ List.mem_singleton_self _)
  exact absurd hmem (by decide)

end Url

end CryptoOpal
