/-
What the patterns match: what a match begins with and ends in, and which
characters a raw value has. None begins or ends with whitespace, and none of
their assertions tells whitespace around a text from its edges, but for the
start of a line.
-/
import ProjectAgent.Identifiers.Extractor
import ProjectAgent.Lib.Surrounded

namespace ProjectAgent.Identifiers

open Matching (Kept Pattern Regex Word)

/-! ## Characters -/

def plainChars : List Char := (List.range 128).map Char.ofNat ++ foldedLetters

/-- What holds of each plain character is found by looking at each. -/
theorem plain_cases {P : Char → Prop} (hall : ∀ c ∈ plainChars, P c) {c : Char}
    (h : plainChar c = true) : P c := by
  refine hall c ?_
  unfold plainChar at h
  rw [Bool.or_eq_true, decide_eq_true_iff, decide_eq_true_iff] at h
  rcases h with h | h
  · exact List.mem_append_left _ (List.mem_map.mpr ⟨c.toNat, List.mem_range.mpr h,
      Char.ofNat_toNat c⟩)
  · exact List.mem_append_right _ h

theorem letter_plain {c : Char} (h : isAsciiLetter c = true) : plainChar c = true := by
  unfold isAsciiLetter at h
  simp only [Bool.or_eq_true, Bool.and_eq_true, decide_eq_true_eq, Char.le_def,
    UInt32.le_iff_toNat_le] at h
  have hle : c.toNat ≤ 122 := h.elim (·.2) fun h => Nat.le_trans h.2 (by decide)
  unfold plainChar
  rw [Bool.or_eq_true, decide_eq_true_iff]
  exact .inl (by omega)

/-- What holds of the special letters, of the capital ones, and of what folds to itself. -/
theorem fold_cases {P : Char → Prop} {c : Char} (hfolded : ∀ c ∈ foldedLetters, P c)
    (hletter : isAsciiLetter c = true → P c) (hself : fold c = c → P c) : P c := by
  by_cases hc : c ∈ foldedLetters
  · exact hfolded c hc
  · unfold foldedLetters at hc
    simp only [List.mem_cons, List.not_mem_nil, or_false, not_or] at hc
    obtain ⟨h1, h2, h3, h4⟩ := hc
    by_cases hcapital : 'A' ≤ c ∧ c ≤ 'Z'
    · refine hletter ?_
      unfold isAsciiLetter
      rw [Bool.or_eq_true, Bool.and_eq_true, Bool.and_eq_true, decide_eq_true_iff,
        decide_eq_true_iff, decide_eq_true_iff,
        decide_eq_true_iff]
      exact .inr hcapital
    · refine hself ?_
      unfold fold
      rw [if_neg (not_or.mpr ⟨h1, h2⟩), if_neg h3, if_neg h4, if_neg hcapital]

theorem letter_kept {c : Char} (h : isAsciiLetter c = true) : keptChar c = true :=
  plain_cases (P := fun c => isAsciiLetter c = true → keptChar c = true) (by decide +kernel)
    (letter_plain h) h

theorem fold_plain {c : Char} (h : plainChar (fold c) = true) : plainChar c = true :=
  fold_cases (P := fun c => plainChar c = true) (by decide) letter_plain fun hself => hself ▸ h

theorem fold_kept {l : Char} (hl : keptChar l = true) : ∀ c, fold c = l → keptChar c = true :=
  fun _ hfold =>
  fold_cases (P := fun c => keptChar c = true) (by decide) letter_kept fun hself =>
    (hself.symm.trans hfold) ▸ hl

theorem not_space_of_kept {c : Char} (h : keptChar c = true) : isSpace c = false := by
  unfold keptChar at h
  rw [Bool.and_eq_true, Bool.not_eq_true'] at h
  exact h.1

theorem nameChar_plain {c : Char} (h : isNameChar c = true) : plainChar c = true := by
  unfold isNameChar isAlnum isLetter isAsciiDigit at h
  simp only [Bool.or_eq_true, Bool.and_eq_true, decide_eq_true_eq, beq_iff_eq, Char.le_def,
    UInt32.le_iff_toNat_le] at h
  rcases h with (h | h) | rfl
  · exact fold_plain (letter_plain h)
  · unfold plainChar
    rw [Bool.or_eq_true, decide_eq_true_iff]
    exact .inl (Nat.lt_of_le_of_lt h.2 (by decide))
  · decide

theorem nameChar_kept {c : Char} (h : isNameChar c = true) : keptChar c = true :=
  plain_cases (P := fun c => isNameChar c = true → keptChar c = true) (by decide +kernel)
    (nameChar_plain h) h

theorem alnum_nameChar {c : Char} (h : isAlnum c = true) : isNameChar c = true := by
  unfold isNameChar
  rw [h, Bool.true_or]

theorem letter_alnum {c : Char} (h : isLetter c = true) : isAlnum c = true := by
  unfold isAlnum
  rw [h, Bool.true_or]

theorem pathChar_plain {c : Char} (h : isPathChar c = true) : plainChar c = true := by
  unfold isPathChar isAsciiDigit at h
  simp only [Bool.or_eq_true, Bool.and_eq_true, decide_eq_true_eq, Char.le_def,
    UInt32.le_iff_toNat_le] at h
  rcases h with (h | h) | h
  · exact letter_plain h
  · unfold plainChar
    rw [Bool.or_eq_true, decide_eq_true_iff]
    exact .inl (Nat.lt_of_le_of_lt h.2 (by decide))
  · have hall : ∀ c ∈ "._~!$&'()*+,;=:@%\x7b\x7d-/".toList, plainChar c = true := by decide
    exact hall c h

theorem pathChar_not_space {c : Char} (h : isPathChar c = true) : isSpace c = false :=
  plain_cases (P := fun c => isPathChar c = true → isSpace c = false) (by decide +kernel)
    (pathChar_plain h) h

/-! ## Classes -/

section Classes

variable {py : Python} {P : Char → Prop} {l : Char}

@[simp] theorem only_fold (hl : keptChar l = true) :
    Regex.Only (fun c => fold c == l) (keptChar · = true) :=
  fun c h =>
  fold_kept hl c (beq_iff_eq.mp h)

@[simp] theorem only_letter : Regex.Only isLetter (keptChar · = true) :=
  fun _ h => nameChar_kept (alnum_nameChar (letter_alnum h))

@[simp] theorem only_alnum : Regex.Only isAlnum (keptChar · = true) :=
  fun _ h => nameChar_kept (alnum_nameChar h)

@[simp] theorem only_name : Regex.Only isNameChar (keptChar · = true) := fun _ h => nameChar_kept h

@[simp] theorem only_digit : Regex.Only py.isDigit (keptChar · = true) :=
  fun c h => (py.isDigit_kept c h).1

@[simp] theorem only_eq : Regex.Only (· == l) P ↔ P l := by
  constructor
  · exact fun h => h l (beq_self_eq_true l)
  · exact fun h c hc => beq_iff_eq.mp hc ▸ h

@[simp] theorem only_decide : Regex.Only (fun c => decide (c = l)) P ↔ P l := by
  constructor
  · exact fun h => h l (decide_eq_true rfl)
  · exact fun h c hc => of_decide_eq_true hc ▸ h

@[simp] theorem only_mem {cs : List Char} :
    Regex.Only (fun c => decide (c ∈ cs)) P ↔ ∀ c ∈ cs, P c := by
  constructor
  · exact fun h c hc => h c (decide_eq_true hc)
  · exact fun h c hc => h c (of_decide_eq_true hc)

@[simp] theorem only_or {p q : Char → Bool} :
    Regex.Only (fun c => p c || q c) P ↔ Regex.Only p P ∧ Regex.Only q P := by
  constructor
  · exact fun h => ⟨fun c hc => h c (Bool.or_eq_true _ _ ▸ .inl hc), fun c hc =>
      h c (Bool.or_eq_true _ _ ▸ .inr hc)⟩
  · rintro ⟨hp, hq⟩ c hc
    exact (Bool.or_eq_true _ _ ▸ hc).elim (hp c) (hq c)

@[simp] theorem boundary_begins {mayBeEmpty : Bool} :
    (boundary py).Begins P mayBeEmpty ↔ mayBeEmpty = true :=
  .rfl

@[simp] theorem boundary_ends {mayBeEmpty : Bool} :
    (boundary py).Ends P mayBeEmpty ↔ mayBeEmpty = true :=
  .rfl

@[simp] theorem boundary_consists : (boundary py).Consists P := trivial

end Classes

/-! ## The patterns -/

section Patterns

variable {py : Python} {left right : List Char}

/-- No match begins or ends with whitespace, and no assertion tells whitespace around a text from
its edges. -/
structure Searched (left right : List Char) (p : Pattern Char) : Prop where
  kept : p.whole.Local left right
  begins : p.whole.Begins (isSpace · = false) false
  ends : p.whole.Ends (isSpace · = false) false

theorem boundary_local (hleft : ∀ c ∈ left, isSpace c = true)
    (hright : ∀ c ∈ right, isSpace c = true) :
    (boundary py).Local left right := by
  intro z
  have hbefore := Matching.head?_inside py.isWord (fun c hc =>
    py.isWord_space c (hleft c hc)) z.before
  have hafter := Matching.head?_inside py.isWord (fun c hc =>
    py.isWord_space c (hright c hc)) z.after
  exact congrArg₂ _ hbefore hafter

theorem wholeMatch_searched {r : Regex Char} (hkept : r.Local left right)
    (hbegins : r.Begins (keptChar · = true) false) (hends : r.Ends (isSpace · = false) false) :
    Searched left right (wholeMatch r) where
  kept := ⟨trivial, hkept, trivial⟩
  begins := .inr ⟨rfl, .inl (hbegins.mono fun _ => not_space_of_kept)⟩
  ends := .inl (.inr ⟨rfl, hends⟩)

theorem path_ends : apiPathRe.Ends (isSpace · = false) false := by
  have honly : Regex.Only isPathChar (isSpace · = false) := fun c hc => pathChar_not_space hc
  simp [apiPathRe, honly]

/-- What an assertion looks for behind is not whitespace. -/
theorem behind_local {q : Char → Bool} (hleft : ∀ c ∈ left, isSpace c = true)
    (hq : Regex.Only q (keptChar · = true)) :
    (Regex.notBehind q).Local left right := by
  refine Matching.notBehind_local fun c hc => ?_
  by_contra hmatch
  exact Bool.false_ne_true ((not_space_of_kept (hq c (Bool.not_eq_false _ ▸ hmatch))).symm.trans
    (hleft c hc))

theorem issueKey_local (hleft : ∀ c ∈ left, isSpace c = true)
    (hright : ∀ c ∈ right, isSpace c = true) :
    (issueKeyRe py).Local left right := by
  have hdash : keptChar '-' = true := by decide
  have hbehind : (Regex.notBehind fun c => isAlnum c || c == '-').Local left right :=
    behind_local hleft (by simp [hdash])
  have hahead : (Regex.notAhead (.seq (Regex.any [word "prj", word "req", word "err"])
      (one '-'))).Local left right := by
    refine Matching.notAhead_local (Kept.of_local (by simp)) hright ?_
    simp [show isSpace '-' = false by decide]
  exact ⟨hbehind, hahead, by simp [boundary_local hleft hright]⟩

theorem path_local (hleft : ∀ c ∈ left, isSpace c = true) : apiPathRe.Local left right := by
  have hletter : Regex.Only isAsciiLetter (keptChar · = true) := fun _ hc => letter_kept hc
  have hdigit : Regex.Only isAsciiDigit (keptChar · = true) :=
    fun c hc => nameChar_kept (alnum_nameChar
    (show isAlnum c = true from Bool.or_eq_true _ _ ▸ .inr hc))
  exact ⟨behind_local hleft (only_or.mpr ⟨hletter, hdigit⟩), by simp⟩

theorem patterns_searched (hleft : ∀ c ∈ left, isSpace c = true)
    (hright : ∀ c ∈ right, isSpace c = true) :
    ∀ entry ∈ patterns py, Searched left right entry.2 := by
  have hboundary := @boundary_local py left right hleft hright
  have hslash : keptChar '/' = true := by decide
  have hv : keptChar 'v' = true ∧ keptChar 'V' = true := by decide
  have hkept {r : Regex Char} (h : r.Ends (keptChar · = true) false) :
      r.Ends (isSpace · = false) false :=
    h.mono fun _ => not_space_of_kept
  simp only [patterns, List.forall_mem_cons]
  refine ⟨?_, ?_, ?_, ?_, ?_, ?_, ?_, ?_, fun _ h => nomatch h⟩
  · refine wholeMatch_searched ?_ ?_ (hkept ?_) <;>
      simp (disch := decide) [projectCodeRe, hboundary]
  · refine wholeMatch_searched ?_ ?_ (hkept ?_) <;>
      simp (disch := decide) [requirementIdRe, hboundary]
  · refine wholeMatch_searched ?_ ?_ (hkept ?_) <;> simp (disch := decide) [errorCodeRe, hboundary]
  · refine wholeMatch_searched (issueKey_local hleft hright) ?_ (hkept ?_) <;> simp [issueKeyRe]
  · refine wholeMatch_searched (path_local hleft) ?_ path_ends
    simp [apiPathRe, hslash]
  · refine wholeMatch_searched ?_ ?_ (hkept ?_) <;> simp (disch := decide) [dbTableRe, hboundary]
  · refine wholeMatch_searched ?_ ?_ (hkept ?_) <;> simp (disch := decide) [dbColumnRe, hboundary]
  · refine wholeMatch_searched ?_ ?_ (hkept ?_) <;> simp [versionRe, hboundary, hv]

/-- A name with dots ends in no whitespace, nor does a quoted one. -/
theorem dottedName_ends {r : Regex Char} :
    (Regex.seq r (.seq dottedName quote)).Ends (isSpace · = false) false := by
  have hletter : Regex.Only isLetter (isSpace · = false) :=
    fun c hc => not_space_of_kept (only_letter c hc)
  have hname : Regex.Only isNameChar (isSpace · = false) :=
    fun c hc => not_space_of_kept (only_name c hc)
  have hmarks : isSpace '_' = false ∧ isSpace '.' = false ∧ isSpace '\x60' = false ∧
      isSpace '\x22' = false := by decide
  simp [hletter, hname, hmarks]

/-- All but the pattern of a column's line. -/
theorem labels_searched (hleft : ∀ c ∈ left, isSpace c = true)
    (hright : ∀ c ∈ right, isSpace c = true) :
    Searched left right tableLabel ∧ Searched left right columnLabel ∧
      Searched left right (sqlTable py) := by
  have hboundary := @boundary_local py left right hleft hright
  have hspace {r : Regex Char} (h : r.Begins (keptChar · = true) false) :
      r.Begins (isSpace · = false) false :=
    h.mono fun _ => not_space_of_kept
  refine ⟨⟨?_, hspace ?_, dottedName_ends⟩, ⟨?_, hspace ?_, dottedName_ends⟩,
    ⟨?_, hspace ?_, dottedName_ends⟩⟩
  · simp [Pattern.whole, tableLabel]
  · simp (disch := decide) [Pattern.whole, tableLabel]
  · simp [Pattern.whole, columnLabel]
  · simp (disch := decide) [Pattern.whole, columnLabel]
  · simp [Pattern.whole, sqlTable, hboundary]
  · simp (disch := decide) [Pattern.whole, sqlTable]

end Patterns

end ProjectAgent.Identifiers
