/-
Stripping a text keeps what the extractor finds in it. All patterns but one
find the same. The pattern of a column's line finds a column at the start of
the stripped text that whitespace other than blanks kept it from before.
-/
import ProjectAgent.Identifiers.Shapes

namespace ProjectAgent.Identifiers

open Matching (Kept Pattern Place Reads Regex Word)

variable {py : Python} {left right s : List Char} {z z' : Place Char} {n : Nat} {raw : List Char}

/-! ## Patterns that find the same -/

theorem Searched.finditer {p : Pattern Char} (h : Searched left right p)
    (hleft : ∀ c ∈ left, isSpace c = true) (hright : ∀ c ∈ right, isSpace c = true) :
    p.finditer (left.reverse ++ (s ++ right)) = p.finditer s :=
  Matching.finditer_inside (Kept.of_local h.kept.1) (Kept.of_local h.kept.2.1)
    (Kept.of_local h.kept.2.2) hleft hright
    (h.begins.mono fun _ hc => Bool.not_eq_true _ ▸ hc)
      (h.ends.mono fun _ hc => Bool.not_eq_true _ ▸ hc)

/-! ## A column's line -/

/-- The start of the text or of a line. -/
def Place.atLine (z : Place Char) : Bool := z.before.head?.all (· == '\n')

theorem sqlColumn_matches (z : Place Char) :
    (sqlColumn py).matches_ z = if Place.atLine z then (sqlColumnLine py).matches_ z else [] := by
  have hends : (sqlColumn py).pre.ends z = if Place.atLine z then (sqlColumnLine py).pre.ends z
      else [] := by
    show ((if Place.atLine z then [z] else []).flatMap fun z' => (sqlColumnLine py).pre.ends z') = _
    split
    · exact List.flatMap_singleton _ _
    · rfl
  unfold Pattern.matches_
  rw [hends]
  split
  · rfl
  · rfl

def blanks : List Char := [' ', '\t']

theorem line_local (hleft : ∀ c ∈ left, isSpace c = true) (hright : ∀ c ∈ right, isSpace c = true) :
    (sqlColumnLine py).whole.Local left right := by
  simp [Pattern.whole, sqlColumnLine, columnTypes, @boundary_local py left right hleft hright]

theorem line_ends : (sqlColumnLine py).whole.Ends (isSpace · = false) false := by
  have hkept : (sqlColumnLine py).whole.Ends (keptChar · = true) false := by
    simp (disch := decide) [Pattern.whole, sqlColumnLine, columnTypes]
  exact hkept.mono fun _ => not_space_of_kept

theorem line_begins :
    (sqlColumnLine py).whole.Begins (fun c => c ∈ blanks ∨ isSpace c = false) false := by
  have hletter : Regex.Only isLetter fun c => c ∈ blanks ∨ isSpace c = false := fun c hc =>
    .inr (not_space_of_kept (only_letter c hc))
  have hmarks : ('_' ∈ blanks ∨ isSpace '_' = false) ∧ ('\x60' ∈ blanks ∨ isSpace '\x60' = false) ∧
      ('\x22' ∈ blanks ∨ isSpace '\x22' = false) ∧ (' ' ∈ blanks ∨ isSpace ' ' = false) ∧
      ('\t' ∈ blanks ∨ isSpace '\t' = false) := by decide
  simp [Pattern.whole, sqlColumnLine, hletter, hmarks]

/-- Nothing in the line ends it. -/
theorem line_consists : (sqlColumnLine py).whole.Consists (· ≠ '\n') := by
  have hnewline {c : Char} (hc : keptChar c = true) : c ≠ '\n' := fun heq => by
    rw [heq] at hc
    revert hc
    decide
  have hfold {l : Char} (hl : keptChar l = true) : Regex.Only (fun c => fold c == l) (· ≠ '\n') :=
    fun c hc =>
    hnewline (only_fold hl c hc)
  have hletter : Regex.Only isLetter (· ≠ '\n') := fun c hc => hnewline (only_letter c hc)
  have hname : Regex.Only isNameChar (· ≠ '\n') := fun c hc => hnewline (only_name c hc)
  simp (disch := decide) [Pattern.whole, sqlColumnLine, columnTypes, hfold, hletter, hname]

/-- Where a blank stands, the line matches as it does after it. -/
theorem line_blank {b : Char} {rest before : List Char} (hb : b ∈ blanks) :
    (sqlColumnLine py).matches_ ⟨before, b :: rest⟩ =
      (sqlColumnLine py).matches_ ⟨b :: before, rest⟩ := by
  have hquote : quote.ends ⟨before, b :: rest⟩ = [⟨before, b :: rest⟩] := by
    have hnot : ∀ c ∈ blanks, c ∉ ['\x60', '\x22'] := by decide
    simpa [Regex.ends] using hnot b hb
  have hgroup : (sqlColumnLine py).group.ends ⟨before, b :: rest⟩ = [] := by
    have hnot : ∀ c ∈ blanks, (isLetter c || c == '_') = false := by decide
    simp [sqlColumnLine, Regex.ends, hnot b hb]
  have hpre : (sqlColumnLine py).pre.ends ⟨before, b :: rest⟩ =
      (sqlColumnLine py).pre.ends ⟨b :: before, rest⟩ ++ quote.ends ⟨before, b :: rest⟩ := by
    have hstep : (oneOf [' ', '\t']).ends ⟨before, b :: rest⟩ = [⟨b :: before, rest⟩] :=
      if_pos (decide_eq_true hb)
    have hrounds : Regex.repeated (oneOf [' ', '\t']).ends (rest.length + 1) ⟨before, b :: rest⟩ =
        Regex.repeated (oneOf [' ', '\t']).ends rest.length ⟨b :: before, rest⟩ ++
          [⟨before, b :: rest⟩] := by
      show ((oneOf [' ', '\t']).ends ⟨before, b :: rest⟩).flatMap _ ++ _ = _
      rw [hstep, List.flatMap_singleton]
    show (Regex.repeated (oneOf [' ', '\t']).ends (rest.length + 1) ⟨before, b :: rest⟩).flatMap
      quote.ends = _
    rw [hrounds, List.flatMap_append, List.flatMap_singleton]
    rfl
  unfold Pattern.matches_
  rw [hpre, List.flatMap_append, hquote, List.flatMap_singleton, hgroup, List.flatMap_nil,
    List.append_nil]

/-- In whitespace before the text, the line matches where only blanks follow, and as it does at the
text. -/
theorem line_before {spaces rest before : List Char} (hspaces : ∀ c ∈ spaces, isSpace c = true) :
    (sqlColumnLine py).matches_ ⟨before, spaces ++ rest⟩ =
      if ∀ c ∈ spaces, c ∈ blanks then (sqlColumnLine py).matches_ ⟨spaces.reverse ++ before, rest⟩
        else [] := by
  induction spaces generalizing before with
  | nil => rw [if_pos fun _ h => nomatch h]; rfl
  | cons c spaces ih =>
    by_cases hc : c ∈ blanks
    · rw [List.cons_append, line_blank hc, ih fun d hd => hspaces d (List.mem_cons_of_mem _ hd),
        List.reverse_cons,
        List.append_assoc]
      exact if_congr (by rw [List.forall_mem_cons, and_iff_right hc]) rfl rfl
    · rw [if_neg fun h => hc (h c List.mem_cons_self)]
      refine List.eq_nil_iff_forall_not_mem.mpr fun found hfound => ?_
      obtain ⟨-, w, hw, hreads⟩ := Matching.matches_reads hfound
      rcases hw.begins line_begins with ⟨-, hno⟩ | ⟨d, w, rfl, hd⟩
      · cases hno
      · obtain ⟨rfl, -⟩ := List.cons.inj hreads.after
        rcases hd with hd | hd
        · exact hc hd
        · exact Bool.false_ne_true (hd.symm.trans (hspaces c List.mem_cons_self))

/-! ## The search of a column's line -/

/-- Not at a start, there is nothing to find. -/
theorem findAll_line {skipped rest before : List Char}
    (hbefore : before.head?.all (· == '\n') = false) (hskipped : ∀ c ∈ skipped, c ≠ '\n') :
    (sqlColumn py).findAll (n + skipped.length) ⟨before, skipped ++ rest⟩ =
      (sqlColumn py).findAll n ⟨skipped.reverse ++ before, rest⟩ := by
  induction skipped generalizing before with
  | nil => rfl
  | cons c skipped ih =>
    have hnone : (sqlColumn py).matches_ ⟨before, c :: (skipped ++ rest)⟩ = [] := by
      rw [sqlColumn_matches]
      exact if_neg (Bool.not_eq_true _ ▸ hbefore)
    have hnext : (sqlColumn py).findAll (n + skipped.length + 1) ⟨before, c :: (skipped ++ rest)⟩ =
        (sqlColumn py).findAll (n + skipped.length) ⟨c :: before, skipped ++ rest⟩ :=
          Matching.findAll_next hnone rfl
    rw [List.length_cons, ← Nat.add_assoc, List.cons_append, hnext, List.reverse_cons,
      List.append_assoc]
    exact ih (beq_false_of_ne (hskipped c List.mem_cons_self)) fun d hd =>
      hskipped d (List.mem_cons_of_mem _ hd)

theorem sqlColumn_ends : (sqlColumn py).whole.Ends (isSpace · = false) false := by
  rcases @line_ends py with h | ⟨h, hpre⟩
  · exact .inl h
  · exact .inr ⟨h, .inl hpre⟩

section Line

variable (hleft : ∀ c ∈ left, isSpace c = true) (hright : ∀ c ∈ right, isSpace c = true)

include hleft hright

theorem line_inside (z : Place Char) : (sqlColumnLine py).matches_ (z.inside left right) =
    ((sqlColumnLine py).matches_ z).map fun found => (found.1, found.2.inside left right) := by
  obtain ⟨hpre, hgroup, hpost⟩ := @line_local py left right hleft hright
  exact Matching.matches_inside (Kept.of_local hpre) (Kept.of_local hgroup)
    (Kept.of_local hpost) hright
    (line_ends.mono fun _ hc => Bool.not_eq_true _ ▸ hc)

/-- Once something of the text has been read, the search goes on as in the text alone. -/
theorem findAll_on {m : Nat} (hz : z.before ≠ []) (hn : z.after.length < n)
    (hm : z.after.length + right.length < m) :
    (sqlColumn py).findAll m (z.inside left right) = (sqlColumn py).findAll n z := by
  refine Matching.findAll_inside (q := fun z => z.before ≠ []) (fun z z' w hz hreads => ?_)
    (fun z hz => ?_)
    (sqlColumn_ends.mono fun _ hc => Bool.not_eq_true _ ▸ hc) hright hz hn hm
  · rw [hreads.before]
    exact List.append_ne_nil_of_right_ne_nil _ hz
  · obtain ⟨before, after⟩ := z
    cases before with
    | nil => exact absurd rfl hz
    | cons c before =>
      have hline : Place.atLine (Place.inside left right ⟨c :: before, after⟩) =
          Place.atLine ⟨c :: before, after⟩ := rfl
      rw [sqlColumn_matches, sqlColumn_matches, hline, line_inside hleft hright]
      split
      · rfl
      · rfl

/-- A match at the text is found by the search in the text, as by that in the text alone. -/
theorem findAll_found {m : Nat} {found : List Char × Place Char}
    (hfound : ((sqlColumnLine py).matches_ ⟨[], s⟩).head? = some found) {before after : List Char}
    (hmatch : (sqlColumn py).matches_ ⟨before, after⟩ = ((sqlColumnLine py).matches_ ⟨[], s⟩).map
      fun found => (found.1, found.2.inside left right))
    (hm : s.length + right.length ≤ m) :
    (sqlColumn py).findAll (m + 1) ⟨before, after⟩ = (sqlColumn py).finditer s := by
  obtain ⟨text, z'⟩ := found
  have hmem := List.mem_of_mem_head? hfound
  have halone : (sqlColumn py).matches_ ⟨[], s⟩ = (sqlColumnLine py).matches_ ⟨[], s⟩ :=
    (sqlColumn_matches _).trans (if_pos rfl)
  have hlt : z'.after.length < s.length :=
    Matching.matches_shorter (line_ends.mono fun _ hc => Bool.not_eq_true _ ▸ hc) hmem
  obtain ⟨-, w, hw, hreads⟩ := Matching.matches_reads hmem
  have hbefore : z'.before ≠ [] := by
    rw [hreads.before]
    rcases hw.ends line_ends with ⟨-, hno⟩ | ⟨rest, c, rfl, -⟩
    · cases hno
    · rw [List.reverse_append]
      exact List.cons_ne_nil _ _
  unfold Pattern.finditer
  unfold Pattern.findAll
  rw [hmatch, List.head?_map, halone, hfound]
  exact congrArg _ (findAll_on hleft hright hbefore hlt (by omega))

/-- Before the text the search finds what is at its start, or nothing. -/
theorem findAll_spaces {spaces before : List Char} (hspaces : ∀ c ∈ spaces, isSpace c = true)
    (heq : spaces.reverse ++ before = left) (hn : s.length + right.length < n) :
    (sqlColumn py).findAll (n + spaces.length) ⟨before, spaces ++ (s ++ right)⟩ =
      (sqlColumn py).finditer s ∨
      (sqlColumn py).findAll (n + spaces.length) ⟨before, spaces ++ (s ++ right)⟩ =
        (sqlColumn py).findAll n ⟨left, s ++ right⟩ := by
  induction spaces generalizing before with
  | nil =>
    obtain rfl : before = left := heq
    exact .inr rfl
  | cons c spaces ih =>
    by_cases hnone : (sqlColumn py).matches_ ⟨before, c :: (spaces ++ (s ++ right))⟩ = []
    · have hnext : (sqlColumn py).findAll (n + spaces.length + 1)
        ⟨before, c :: (spaces ++ (s ++ right))⟩ =
          (sqlColumn py).findAll (n + spaces.length) ⟨c :: before, spaces ++ (s ++ right)⟩ :=
            Matching.findAll_next hnone rfl
      rw [List.reverse_cons, List.append_assoc] at heq
      rw [List.length_cons, ← Nat.add_assoc, List.cons_append, hnext]
      exact ih (fun d hd => hspaces d (List.mem_cons_of_mem _ hd)) heq
    · left
      have hmatch : (sqlColumn py).matches_ ⟨before, (c :: spaces) ++ (s ++ right)⟩ =
          (sqlColumnLine py).matches_ (Place.inside left right ⟨[], s⟩) := by
        rw [List.cons_append]
        rw [sqlColumn_matches] at hnone ⊢
        have hline := (ite_ne_right_iff.mp hnone).1
        have hne := (ite_ne_right_iff.mp hnone).2
        have hbefore := @line_before py (c :: spaces) (s ++ right) before hspaces
        rw [List.cons_append] at hbefore
        rw [if_pos hline]
        rw [hbefore] at hne ⊢
        rw [if_pos (ite_ne_right_iff.mp hne).1, heq]
        rfl
      rw [line_inside hleft hright] at hmatch
      cases hfound : ((sqlColumnLine py).matches_ ⟨[], s⟩).head? with
      | none =>
        rw [List.head?_eq_none_iff.mp hfound] at hmatch
        exact absurd hmatch hnone
      | some found =>
        have hm : s.length + right.length ≤ n + spaces.length := by omega
        exact findAll_found hleft hright hfound hmatch hm

/-- **What the pattern finds in the text it finds in the text alone.** -/
theorem mem_sqlColumn (h : raw ∈ (sqlColumn py).finditer (left.reverse ++ (s ++ right))) :
    raw ∈ (sqlColumn py).finditer s := by
  have hfuel : (left.reverse ++ (s ++ right)).length + 1 = s.length + right.length + 1 +
      left.reverse.length := by
    rw [List.length_append, List.length_append]
    omega
  have hspaces : ∀ c ∈ left.reverse, isSpace c = true :=
    fun c hc => hleft c (List.mem_reverse.mp hc)
  unfold Pattern.finditer at h
  rw [hfuel] at h
  rcases @findAll_spaces py left right s (s.length + right.length +
    1) hleft hright left.reverse [] hspaces
    (by rw [List.reverse_reverse, List.append_nil]) (Nat.lt_succ_self _) with heq | heq
  · rwa [heq] at h
  · rw [heq] at h
    have halone : (sqlColumn py).matches_ ⟨[], s⟩ = (sqlColumnLine py).matches_ ⟨[], s⟩ :=
      (sqlColumn_matches _).trans (if_pos rfl)
    have hstart : (sqlColumn py).matches_ ⟨left, s ++ right⟩ =
      if Place.atLine ⟨left, s ++ right⟩ then
        ((sqlColumnLine py).matches_ ⟨[], s⟩).map fun found => (found.1, found.2.inside left right)
          else [] := by
      rw [sqlColumn_matches, ← line_inside hleft hright]
      rfl
    cases s with
    | nil =>
      rw [Matching.findAll_outer (sqlColumn_ends.mono fun _ hc => Bool.not_eq_true _ ▸ hc) hright]
        at h
      cases h
    | cons c rest =>
      have hrest {n : Nat} (hn : rest.length < n) :
          (sqlColumn py).findAll (rest.length + right.length + 1) ⟨c :: left, rest ++ right⟩ =
            (sqlColumn py).findAll n ⟨[c], rest⟩ :=
        @findAll_on py left right ⟨[c], rest⟩ n hleft hright _ (List.cons_ne_nil _ _) hn
          (Nat.lt_succ_self _)
      have hfuel' : (c :: rest).length + right.length + 1 = rest.length + right.length + 1 + 1 := by
        rw [List.length_cons]
        omega
      rw [hfuel'] at h
      cases hfound : ((sqlColumnLine py).matches_ ⟨[], c :: rest⟩).head? with
      | none =>
        have hnone := List.head?_eq_none_iff.mp hfound
        rw [hnone] at halone hstart
        have hnext := @Matching.findAll_next _ (sqlColumn py) _ (rest.length + right.length + 1) c
          (rest ++ right)
          (hstart.trans (ite_self _)) rfl
        have hnext' := @Matching.findAll_next _ (sqlColumn py) _ (rest.length + 1) c rest halone rfl
        unfold Pattern.finditer
        rw [List.length_cons, hnext', ← hrest (Nat.lt_succ_self _)]
        exact hnext ▸ h
      | some found =>
        by_cases hline : Place.atLine ⟨left, c :: (rest ++ right)⟩ = true
        · have hmatch := hstart.trans (if_pos hline)
          rwa [findAll_found hleft hright hfound hmatch
            (Nat.le_of_eq (by rw [List.length_cons]; omega))] at h
        · -- the column at the start of the stripped text is one more that is found there
          have hnext := @Matching.findAll_next _ (sqlColumn py) _ (rest.length + right.length + 1) c
            (rest ++ right)
            (hstart.trans (if_neg hline)) rfl
          obtain ⟨text, z'⟩ := found
          obtain ⟨-, w, hw, hreads⟩ := Matching.matches_reads (List.mem_of_mem_head? hfound)
          rcases hw.begins line_begins with ⟨-, hno⟩ | ⟨d, w, rfl, -⟩
          · cases hno
          obtain ⟨rfl, htail⟩ := List.cons.inj hreads.after
          have hafter : rest = w ++ z'.after := htail
          have hplain := fun e he => hw.consists line_consists e (List.mem_cons_of_mem _ he)
          have hbefore : ([c].head?.all (· == '\n')) = false :=
            beq_false_of_ne (hw.consists line_consists c List.mem_cons_self)
          have hskip := @findAll_line py (rest.length + 1) w z'.after [c] hbefore hplain
          have hplace : (⟨w.reverse ++ [c], z'.after⟩ : Place Char) = z' := by
            have hreads' := hreads.before
            rw [List.append_nil, List.reverse_cons] at hreads'
            rw [← hreads']
          have halso : (sqlColumn py).finditer (c :: rest) =
              text :: (sqlColumn py).findAll (rest.length + 1) z' := by
            unfold Pattern.finditer
            unfold Pattern.findAll
            rw [halone, hfound]
            rfl
          rw [halso]
          refine List.mem_cons_of_mem _ ?_
          rw [← hplace, ← hskip, ← hafter, ← hrest (by omega)]
          exact hnext ▸ h

end Line

end ProjectAgent.Identifiers
