import TabDeck.Session.CommandLine

namespace TabDeck.Session

def specials : List Char := ['"', '\\', '$', '\x60', '!']

theorem isSpecial_iff {c : Char} : isSpecial c = true ↔ c ∈ specials := by
  simp [isSpecial, specials, or_assoc]

structure QuoteRules where
  pair : Char → List Char
  literal : Char → Bool

namespace QuoteRules

def lenient : QuoteRules := ⟨fun c => [c], fun _ => true⟩

/-- A backslash is removed before a few characters and stays before all others; an expansion is no literal text. -/
def posix : QuoteRules where
  pair c := if c ∈ ['$', '\x60', '"', '\\', '\n'] then [c] else ['\\', c]
  literal c := c ∉ ['$', '\x60']

variable (rules : QuoteRules)

def prepend (front : List Char) (scanned : List Char × List Char) : List Char × List Char :=
  (front ++ scanned.1, scanned.2)

def readWord? : List Char → Option (List Char × List Char)
  | [] => none
  | '"' :: rest => some ([], rest)
  | '\\' :: c :: rest => (readWord? rest).map (prepend (rules.pair c))
  | c :: rest => if rules.literal c then (readWord? rest).map (prepend [c]) else none

theorem after_of_map_prepend {front w after : List Char} {scanned : Option (List Char × List Char)}
    (h : scanned.map (prepend front) = some (w, after)) : ∃ word, scanned = some (word, after) := by
  obtain ⟨⟨word, rest⟩, hs, he⟩ := Option.map_eq_some_iff.mp h
  obtain ⟨-, rfl⟩ := Prod.mk.inj he
  exact ⟨word, hs⟩

theorem readWord?_length_lt {s w after : List Char} (h : rules.readWord? s = some (w, after)) :
    after.length < s.length := by
  fun_induction readWord? rules s generalizing w after with
  | case1 => cases h
  | case2 rest =>
    obtain ⟨-, rfl⟩ : [] = w ∧ rest = after := by simpa using h
    exact Nat.lt_succ_self _
  | case3 c rest ih =>
    obtain ⟨word, hw⟩ := after_of_map_prepend h
    exact Nat.lt_succ_of_lt (Nat.lt_succ_of_lt (ih hw))
  | case4 c rest _ _ _ ih =>
    obtain ⟨word, hw⟩ := after_of_map_prepend h
    exact Nat.lt_succ_of_lt (ih hw)
  | case5 => cases h

def readWords? : List Char → Option (List (List Char))
  | '"' :: rest =>
    match h : rules.readWord? rest with
    | some (w, []) => some [w]
    | some (w, ' ' :: more) =>
      have := rules.readWord?_length_lt h
      (readWords? more).map (w :: ·)
    | _ => none
  | _ => none
termination_by s => s.length
decreasing_by simp_all; omega

theorem readWords?_last {rest w : List Char} (h : rules.readWord? rest = some (w, [])) :
    rules.readWords? ('"' :: rest) = some [w] := by
  rw [readWords?]
  split <;> simp_all

theorem readWords?_more {rest w more : List Char} (h : rules.readWord? rest = some (w, ' ' :: more)) :
    rules.readWords? ('"' :: rest) = (rules.readWords? more).map (w :: ·) := by
  rw [readWords?]
  split <;> simp_all

def readQuoted? (text : String) : Option String :=
  match text.toList with
  | '"' :: rest =>
    match rules.readWord? rest with
    | some (w, []) => some (String.ofList w)
    | _ => none
  | _ => none

def readLine? (line : String) : Option (List String) :=
  if line = "" then some [] else (rules.readWords? line.toList).map (·.map String.ofList)

def respelled (word : List Char) : List Char := word.flatMap fun c => if isSpecial c then rules.pair c else [c]

variable {rules}

theorem readWord?_escaped (h : ∀ c, isSpecial c = false → rules.literal c = true) (word rest : List Char) :
    rules.readWord? (escaped word ++ '"' :: rest) = some (rules.respelled word, rest) := by
  induction word with
  | nil => rfl
  | cons c word ih =>
    rw [escaped, List.flatMap_cons, List.append_assoc, ← escaped, respelled, List.flatMap_cons, ← respelled]
    by_cases hc : isSpecial c = true
    · simp [hc, readWord?, ih, prepend]
    · have hplain : c ∉ specials := mt isSpecial_iff.mpr hc
      have hq : c ≠ '"' := fun he => hplain (by simp [he, specials])
      have hb : c ≠ '\\' := fun he => hplain (by simp [he, specials])
      simp only [hc, Bool.false_eq_true, if_false, List.cons_append, List.nil_append]
      rw [readWord?, if_pos (h c (by simpa using hc)), ih]
      · rfl
      · exact hq
      · exact fun _ _ he _ => hb he

theorem respelled_lenient (word : List Char) : lenient.respelled word = word := by
  induction word with
  | nil => rfl
  | cons c word ih =>
    rw [respelled, List.flatMap_cons, ← respelled, ih]
    simp [lenient]

def marked (word : List Char) : List Char := word.flatMap fun c => if c = '!' then ['\\', c] else [c]

theorem respelled_posix (word : List Char) : posix.respelled word = marked word := by
  refine congrArg (List.flatMap · word) (funext fun c => ?_)
  by_cases hm : c = '!'
  · simp [hm, isSpecial, posix]
  · by_cases hc : isSpecial c = true
    · have hs : c ∈ specials := isSpecial_iff.mp hc
      have hp : c ∈ ['$', '\x60', '"', '\\', '\n'] := by
        simp only [specials, List.mem_cons, List.not_mem_nil, hm, or_false] at hs
        rcases hs with rfl | rfl | rfl | rfl <;> decide
      simp only [hc, if_true, posix, if_pos hp, if_neg hm]
    · simp [hc, hm]

theorem marked_eq_self_iff {word : List Char} : marked word = word ↔ '!' ∉ word := by
  induction word with
  | nil => simp [marked]
  | cons c word ih =>
    rw [marked, List.flatMap_cons, ← marked]
    by_cases hm : c = '!'
    · simp [hm]
    · simp [hm, ih, Ne.symm hm]

end QuoteRules

section Line

open QuoteRules

def bare : List Char → List Char
  | [] => []
  | '\\' :: _ :: rest => bare rest
  | c :: rest => c :: bare rest

theorem bare_escaped {word : List Char} {c : Char} (h : c ∈ bare (escaped word)) : c ∉ specials := by
  induction word with
  | nil => cases h
  | cons d word ih =>
    rw [escaped, List.flatMap_cons, ← escaped] at h
    by_cases hd : isSpecial d = true
    · simp only [hd, if_true, List.cons_append, List.nil_append, bare] at h
      exact ih h
    · have hplain : d ∉ specials := mt isSpecial_iff.mpr hd
      have hb : d ≠ '\\' := fun he => hplain (by simp [he, specials])
      simp only [hd, List.cons_append, List.nil_append, Bool.false_eq_true, if_false] at h
      rw [bare] at h
      · rcases List.mem_cons.mp h with rfl | h
        · exact hplain
        · exact ih h
      · exact fun _ _ he _ => hb he

theorem readWord?_lenient (word rest : List Char) :
    lenient.readWord? (escaped word ++ '"' :: rest) = some (word, rest) := by
  rw [readWord?_escaped (fun _ _ => rfl), respelled_lenient]

theorem readWords?_quotedChars (word : List Char) (words : List (List Char)) :
    lenient.readWords? ([' '].intercalate ((word :: words).map quotedChars)) = some (word :: words) := by
  induction words generalizing word with
  | nil =>
    rw [List.map_singleton, List.intercalate_singleton]
    exact readWords?_last _ (readWord?_lenient word [])
  | cons next words ih =>
    rw [List.map_cons, List.map_cons, List.intercalate_cons_cons, ← List.map_cons, quotedChars]
    simp only [List.cons_append, List.append_assoc, List.nil_append]
    rw [readWords?_more _ (readWord?_lenient word _), ih]
    rfl

theorem toList_quoteWord (word : String) : (quoteWord (some word)).toList = quotedChars word.toList :=
  String.toList_ofList

theorem toList_quoteLine (words : List String) :
    (quoteLine words).toList = [' '].intercalate ((words.map String.toList).map quotedChars) := by
  rw [quoteLine, String.toList_intercalate, List.map_map, List.map_map]
  exact congrArg _ (List.map_congr_left fun w _ => toList_quoteWord w)

theorem readLine?_eq (words : List String) : lenient.readLine? (quoteLine words) = some words := by
  cases words with
  | nil => rfl
  | cons word words =>
    have hread := readWords?_quotedChars word.toList (words.map String.toList)
    rw [← List.map_cons, ← toList_quoteLine] at hread
    have hne : quoteLine (word :: words) ≠ "" := by
      intro he
      rw [he, String.toList_empty, readWords?] at hread
      · cases hread
      · nofun
    rw [readLine?, if_neg hne, hread, Option.map_some, List.map_map]
    exact congrArg some (List.map_id'' (fun _ => String.ofList_toList) _)

theorem readLine?_quoteLine (words : List String) :
    lenient.readLine? (quoteLine words) = some words ∧
      (∀ w ∈ words, ∃ text, (quoteWord (some w)).toList = '"' :: text ++ ['"'] ∧ ∀ c ∈ bare text, c ∉ specials) ∧
      ∀ others, quoteLine others = quoteLine words → others = words := by
  refine ⟨readLine?_eq words, ?_, ?_⟩
  · intro w _
    exact ⟨escaped w.toList, toList_quoteWord w, fun c => bare_escaped⟩
  · intro others h
    have hread := readLine?_eq others
    rw [h, readLine?_eq words] at hread
    exact (Option.some.inj hread).symm

theorem readLine?_quoteLine_awkward :
    let words := ["", "a b", "say \"hi\"", "C:\\", "$(id) \x60id\x60", "done!"]
    lenient.readLine? (quoteLine words) = some words ∧ "C:\\" ∈ words ∧
      ∃ text, (quoteWord (some "C:\\")).toList = '"' :: text ++ ['"'] ∧ ∀ c ∈ bare text, c ∉ specials :=
  let h := readLine?_quoteLine ["", "a b", "say \"hi\"", "C:\\", "$(id) \x60id\x60", "done!"]
  ⟨h.1, by decide, h.2.1 _ (by decide)⟩

end Line

section Posix

open QuoteRules

theorem literal_posix {c : Char} (h : isSpecial c = false) : posix.literal c = true := by
  have hc : c ∉ specials := fun hs => Bool.false_ne_true (h.symm.trans (isSpecial_iff.mpr hs))
  refine decide_eq_true fun he => hc ?_
  simp only [List.mem_cons, List.not_mem_nil, or_false] at he
  rcases he with rfl | rfl <;> decide

theorem readQuoted?_posix (word : String) :
    posix.readQuoted? (quoteWord (some word)) = some (String.ofList (marked word.toList)) := by
  have hread := readWord?_escaped (fun _ => literal_posix) word.toList []
  rw [respelled_posix] at hread
  rw [readQuoted?, toList_quoteWord, quotedChars, List.cons_append]
  simp only [hread]

theorem posix_readQuoted?_quoteWord (word : String) :
    posix.readQuoted? (quoteWord (some word)) = some (String.ofList (marked word.toList)) ∧
      (posix.readQuoted? (quoteWord (some word)) = some word ↔ '!' ∉ word.toList) := by
  refine ⟨readQuoted?_posix word, ?_⟩
  rw [readQuoted?_posix, Option.some_inj, ← String.toList_inj, String.toList_ofList, marked_eq_self_iff]

theorem posix_readQuoted?_done : posix.readQuoted? (quoteWord (some "done!")) ≠ some "done!" := by
  decide

end Posix

end TabDeck.Session
