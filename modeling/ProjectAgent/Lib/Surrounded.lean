/-
A text inside another. Where no assertion of an expression tells the symbols
around the text from its edges, it matches there what it matches in the text
alone; where no match begins with such a symbol or ends in one, it finds there
what it finds in the text alone.
-/
import ProjectAgent.Lib.Regex

namespace Matching

variable {α : Type} {left right : List α} {outer : α → Prop} {r s : Regex α} {p : Pattern α}
  {z z' : Place α}
  {text u v w : List α} {n m : Nat}

def Place.inside (left right : List α) (z : Place α) : Place α :=
  ⟨z.before ++ left, z.after ++ right⟩

/-- Not beyond what is on the right. -/
def Place.within (right : List α) (z : Place α) : Bool := right.length ≤ z.after.length

/-! ## Ends -/

/-- The ends in the text are those in the text alone. -/
def Kept (left right : List α) (r : Regex α) : Prop :=
  ∀ z, (r.ends (z.inside left right)).filter (·.within right) = (r.ends z).map (·.inside left right)

theorem flatMap_filter {β γ : Type} {l : List β} {f : β → List γ} {p : β → Bool}
    (h : ∀ a, p a = false → f a = []) :
    l.flatMap f = (l.filter p).flatMap f := by
  induction l with
  | nil => rfl
  | cons a l ih =>
    rw [List.flatMap_cons, List.filter_cons, ih]
    cases hp : p a with
    | false => rw [h a hp]; rfl
    | true => rfl

/-- What follows such an end follows it alone. -/
theorem Kept.flatMap {β γ : Type} (hr : Kept left right r) {f : Place α → List β}
    {g : Place α → List γ} {ok : β → Bool} {embed : γ → β}
    (hin : ∀ z' ∈ r.ends z, (f (z'.inside left right)).filter ok = (g z').map embed)
    (hout : ∀ z', z'.within right = false → (f z').filter ok = []) :
    ((r.ends (z.inside left right)).flatMap f).filter ok = ((r.ends z).flatMap g).map embed := by
  rw [List.filter_flatMap, flatMap_filter hout, hr z, List.flatMap_map, List.map_flatMap]
  exact List.flatMap_congr hin

theorem not_within (h : z' ∈ r.ends z) (hz : z.within right = false) : z'.within right = false := by
  have hle := ends_length h
  unfold Place.within at hz ⊢
  rw [decide_eq_false_iff_not] at hz ⊢
  omega

theorem filter_within_nil (hz : z.within right = false) : (r.ends z).filter (·.within right) = [] :=
  List.filter_eq_nil_iff.mpr fun _ hz' hin =>
    Bool.false_ne_true ((not_within hz' hz).symm.trans hin)

theorem within_inside : (z.inside left right).within right = true := by
  unfold Place.within Place.inside
  rw [decide_eq_true_eq, List.length_append]
  exact Nat.le_add_left _ _

theorem Kept.empty : Kept left right .empty := by
  intro z
  unfold Regex.ends
  rw [List.filter_singleton, within_inside]
  rfl

theorem Kept.char {p : α → Bool} : Kept left right (.char p) := by
  rintro ⟨before, after⟩
  unfold Regex.ends Place.inside
  cases after with
  | nil =>
    cases right with
    | nil => rfl
    | cons c right =>
      dsimp only [List.nil_append]
      split
      · refine List.filter_eq_nil_iff.mpr fun z' hz' => ?_
        obtain rfl := List.mem_singleton.mp hz'
        unfold Place.within
        rw [decide_eq_true_eq, List.length_cons]
        exact Nat.not_succ_le_self _
      · rfl
  | cons c rest =>
    dsimp only [List.cons_append]
    split
    · rw [List.filter_singleton]
      have hin : (Place.mk (c :: (before ++ left)) (rest ++ right)).within right = true :=
        @within_inside α left right ⟨c :: before, rest⟩
      rw [hin]
      rfl
    · rfl

theorem Kept.seq (hr : Kept left right r) (hs : Kept left right s) : Kept left right (.seq r s) :=
  fun _ =>
  hr.flatMap (fun _ _ => hs _) fun _ => filter_within_nil

theorem Kept.alt (hr : Kept left right r) (hs : Kept left right s) :
    Kept left right (.alt r s) := by
  intro z
  unfold Regex.ends
  rw [List.filter_append, hr z, hs z, List.map_append]

theorem Kept.look {holds : Place α → Bool} (h : ∀ z, holds (z.inside left right) = holds z) :
    Kept left right (.look holds) := by
  intro z
  unfold Regex.ends
  rw [h z]
  split
  · rw [List.filter_singleton, within_inside]
    rfl
  · rfl

/-! ## Stars -/

theorem shorter (hr : r.Begins (fun _ => True) false) (h : z' ∈ r.ends z) :
    z'.after.length < z.after.length := by
  obtain ⟨w, hw, hreads⟩ := ends_reads h
  rw [hreads.length]
  rcases hw.begins hr with ⟨-, hno⟩ | ⟨c, rest, rfl, -⟩
  · cases hno
  · rw [List.length_cons]
    omega

/-- More rounds than there are symbols make no difference. -/
theorem repeated_enough (hr : r.Begins (fun _ => True) false) (hn : z.after.length ≤ n)
    (hm : z.after.length ≤ m) :
    Regex.repeated r.ends n z = Regex.repeated r.ends m z := by
  have hnil {z : Place α} (hz : z.after.length = 0) : r.ends z = [] :=
    List.eq_nil_iff_forall_not_mem.mpr fun z' hz' => by
      have hlt := shorter hr hz'
      omega
  induction n generalizing z m with
  | zero =>
    cases m with
    | zero => rfl
    | succ m =>
      unfold Regex.repeated
      rw [hnil (Nat.le_zero.mp hn)]
      rfl
  | succ n ih =>
    cases m with
    | zero =>
      unfold Regex.repeated
      rw [hnil (Nat.le_zero.mp hm)]
      rfl
    | succ m =>
      unfold Regex.repeated
      congr 1
      refine List.flatMap_congr fun z' hz' => ih ?_ ?_
      · have hlt := shorter hr hz'
        omega
      · have hlt := shorter hr hz'
        omega

theorem repeated_length (h : z' ∈ Regex.repeated r.ends n z) :
    z'.after.length ≤ z.after.length := by
  obtain ⟨w, -, hreads⟩ := repeated_reads (fun _ _ h => ends_reads h) h
  rw [hreads.length]
  exact Nat.le_add_left _ _

theorem Kept.star (hr : Kept left right r) (hconsumes : r.Begins (fun _ => True) false) :
    Kept left right (.star r) := by
  have hrounds : ∀ n z, (Regex.repeated r.ends n (z.inside left right)).filter (·.within right) =
      (Regex.repeated r.ends n z).map (·.inside left right) := by
    intro n
    induction n with
    | zero => exact Kept.empty
    | succ n ih =>
      intro z
      unfold Regex.repeated
      rw [List.filter_append, List.map_append]
      congr 1
      · refine hr.flatMap (fun z' _ => ih z') fun z₁ hz₁ =>
          List.filter_eq_nil_iff.mpr fun z' hz' hin => ?_
        have hle := repeated_length hz'
        unfold Place.within at hz₁ hin
        rw [decide_eq_false_iff_not] at hz₁
        rw [decide_eq_true_eq] at hin
        omega
      · exact Kept.empty z
  intro z
  have hlen : z.after.length ≤ (z.inside left right).after.length := by
    unfold Place.inside
    rw [List.length_append]
    exact Nat.le_add_right _ _
  show (Regex.repeated r.ends (z.inside left right).after.length (z.inside left right)).filter _ = _
  rw [hrounds, repeated_enough hconsumes hlen (Nat.le_refl _)]
  rfl

/-! ## Assertions -/

/-- The stars of the expression consume something in each round, and its assertions do not tell what
is around the text. -/
@[simp] def Regex.Local (left right : List α) : Regex α → Prop
  | .empty | .char _ => True
  | .seq r s | .alt r s => Local left right r ∧ Local left right s
  | .star r => Local left right r ∧ r.Begins (fun _ => True) false
  | .look holds => ∀ z : Place α, holds (z.inside left right) = holds z

/-- A word that neither begins nor ends outside stays in the text. -/
theorem within_of_word (hright : ∀ c ∈ right, outer c) (hends : r.Ends (¬ outer ·) false)
    (hw : Word r w) (hreads : Reads (z.inside left right) z' w) : z'.within right = true := by
  rcases hw.ends hends with ⟨-, hno⟩ | ⟨rest, c, rfl, hc⟩
  · cases hno
  · unfold Place.within
    rw [decide_eq_true_eq]
    by_contra hlt
    have hsplit : z.after ++ right = rest ++ ([c] ++ z'.after) :=
      hreads.after.trans (List.append_assoc _ _ _)
    rcases List.append_eq_append_iff.mp hsplit with ⟨a, -, ha⟩ | ⟨a, -, ha⟩
    · exact hc (hright c (ha ▸ List.mem_append_right _ (List.mem_append_left _ List.mem_cons_self)))
    · have hlen := congrArg List.length ha
      rw [List.length_append, List.length_append, List.length_singleton] at hlen
      obtain rfl : a = [] := List.length_eq_zero_iff.mp (by omega)
      rw [List.nil_append] at ha
      exact hc (hright c (ha ▸ List.mem_append_left _ List.mem_cons_self))

/-- Where each end is in the text, the ends are those in the text alone. -/
theorem Kept.ends_eq (hr : Kept left right r) (hright : ∀ c ∈ right, outer c)
    (hends : r.Ends (¬ outer ·) false) :
    r.ends (z.inside left right) = (r.ends z).map (·.inside left right) := by
  rw [← hr z]
  refine (List.filter_eq_self.mpr fun z' hz' => ?_).symm
  obtain ⟨w, hw, hreads⟩ := ends_reads hz'
  exact within_of_word hright hends hw hreads

theorem notAhead_local (hr : Kept left right r) (hright : ∀ c ∈ right, outer c)
    (hends : r.Ends (¬ outer ·) false) :
    r.notAhead.Local left right := by
  intro z
  dsimp only
  rw [hr.ends_eq hright hends]
  cases r.ends z <;> rfl

theorem head?_inside (q : α → Bool) (hleft : ∀ c ∈ left, q c = false) (before : List α) :
    (before ++ left).head?.any q = before.head?.any q := by
  cases before with
  | cons c before => rfl
  | nil =>
    cases left with
    | nil => rfl
    | cons c left => exact hleft c List.mem_cons_self

theorem notBehind_local {q : α → Bool} (hleft : ∀ c ∈ left, q c = false) :
    (Regex.notBehind q).Local left right :=
  fun z =>
  congrArg not (head?_inside q hleft z.before)

/-! ## Expressions that are kept -/

theorem Kept.of_local (h : r.Local left right) : Kept left right r := by
  induction r with
  | empty => exact Kept.empty
  | char p => exact Kept.char
  | seq r s ihr ihs => exact (ihr h.1).seq (ihs h.2)
  | alt r s ihr ihs => exact (ihr h.1).alt (ihs h.2)
  | star r ih => exact (ih h.1).star h.2
  | look holds => exact Kept.look h

/-! ## Matches -/

/-- The matches in the text are those in the text alone. -/
theorem matches_inside (hpre : Kept left right p.pre) (hgroup : Kept left right p.group)
    (hpost : Kept left right p.post) (hright : ∀ c ∈ right, outer c)
    (hends : p.whole.Ends (¬ outer ·) false) :
    p.matches_ (z.inside left right) = (p.matches_ z).map fun found =>
      (found.1, found.2.inside left right) := by
  have hin : (p.matches_ (z.inside left right)).filter (fun found => found.2.within right) =
      p.matches_ (z.inside left right) := by
    refine List.filter_eq_self.mpr fun found hfound => ?_
    obtain ⟨-, w, hw, hreads⟩ := matches_reads hfound
    exact within_of_word hright hends hw hreads
  have hpost' (text : List α) (z₂ : Place α) :
      ((p.post.ends z₂).map fun z₃ => (text, z₃)).filter (fun found => found.2.within right) =
        ((p.post.ends z₂).filter (·.within right)).map fun z₃ => (text, z₃) := by
    rw [List.filter_map]
    rfl
  rw [← hin]
  unfold Pattern.matches_
  refine hpre.flatMap (fun z₁ _ => hgroup.flatMap (fun z₂ hz₂ => ?_) fun z₂ hz₂ => ?_)
    fun z₁ hz₁ => ?_
  · rw [hpost', hpost z₂, List.map_map, List.map_map]
    have htext : (z₁.inside left right).after.take
      ((z₁.inside left right).after.length - (z₂.inside left right).after.length) =
        z₁.after.take (z₁.after.length - z₂.after.length) := by
      unfold Place.inside
      rw [List.length_append, List.length_append, Nat.add_sub_add_right,
        List.take_append_of_le_length (Nat.sub_le _ _)]
    rw [htext]
    rfl
  · rw [hpost', filter_within_nil hz₂, List.map_nil]
  · rw [List.filter_flatMap]
    refine List.flatMap_eq_nil_iff.mpr fun z₂ hz₂ => ?_
    rw [hpost', filter_within_nil (not_within hz₂ hz₁), List.map_nil]

/-! ## What is found -/

theorem matches_shorter (hends : p.whole.Ends (¬ outer ·) false) (h : (text, z') ∈ p.matches_ z) :
    z'.after.length < z.after.length := by
  obtain ⟨-, w, hw, hreads⟩ := matches_reads h
  rw [hreads.length]
  rcases hw.ends hends with ⟨-, hno⟩ | ⟨rest, c, rfl, -⟩
  · cases hno
  · rw [List.length_append, List.length_singleton]
    omega

/-- No match ends outside. -/
theorem matches_none (hends : p.whole.Ends (¬ outer ·) false) (hout : ∀ c ∈ z.after, outer c) :
    p.matches_ z = [] := by
  refine List.eq_nil_iff_forall_not_mem.mpr fun found hfound => ?_
  obtain ⟨-, w, hw, hreads⟩ := matches_reads hfound
  rcases hw.ends hends with ⟨-, hno⟩ | ⟨rest, c, rfl, hc⟩
  · cases hno
  · refine hc (hout c ?_)
    rw [hreads.after]
    exact List.mem_append_left _ (List.mem_append_right _ List.mem_cons_self)

/-- Where nothing matches, the search goes on. -/
theorem findAll_next {c : α} {rest : List α} (hnone : p.matches_ z = [])
    (hz : z.after = c :: rest) :
    p.findAll (n + 1) z = p.findAll n ⟨c :: z.before, rest⟩ := by
  unfold Pattern.findAll
  rw [hnone, hz]
  cases n <;> rfl

theorem findAll_outer (hends : p.whole.Ends (¬ outer ·) false) (hout : ∀ c ∈ z.after, outer c) :
    p.findAll n z = [] := by
  induction n generalizing z with
  | zero => rfl
  | succ n ih =>
    cases hz : z.after with
    | nil =>
      unfold Pattern.findAll
      rw [matches_none hends hout, hz]
      rfl
    | cons c rest =>
      rw [findAll_next (matches_none hends hout) hz]
      exact ih fun d hd => hout d (hz ▸ List.mem_cons_of_mem _ hd)

/-- The search in the text finds what the search in the text alone does, from such places on. -/
theorem findAll_inside {q : Place α → Prop} (hq : ∀ z z' w, q z → Reads z z' w → q z')
    (hinside : ∀ z, q z → p.matches_ (z.inside left right) = (p.matches_ z).map fun found =>
      (found.1, found.2.inside left right))
    (hends : p.whole.Ends (¬ outer ·) false) (hright : ∀ c ∈ right, outer c) (hz : q z)
    (hn : z.after.length < n) (hm : z.after.length + right.length < m) :
    p.findAll m (z.inside left right) = p.findAll n z := by
  induction n generalizing z m with
  | zero => exact absurd hn (Nat.not_lt_zero _)
  | succ n ih =>
    obtain ⟨m, rfl⟩ : ∃ k, m = k + 1 := ⟨m - 1, by omega⟩
    cases hmatch : (p.matches_ z).head? with
    | some found =>
      obtain ⟨text, z'⟩ := found
      have hmem := List.mem_of_mem_head? hmatch
      have hlt := matches_shorter hends hmem
      obtain ⟨-, w, -, hreads⟩ := matches_reads hmem
      unfold Pattern.findAll
      rw [hinside z hz, List.head?_map, hmatch]
      dsimp only [Option.map_some]
      rw [ih (hq z z' w hz hreads) (by omega) (by omega)]
    | none =>
      have hnone := List.head?_eq_none_iff.mp hmatch
      obtain ⟨before, after⟩ := z
      cases after with
      | nil =>
        have halone : p.findAll (n + 1) ⟨before, []⟩ = [] :=
          findAll_outer hends fun c (hc : c ∈ []) => absurd hc List.not_mem_nil
        rw [halone, findAll_outer hends]
        exact hright
      | cons c rest =>
        have hnone' : p.matches_ (Place.inside left right ⟨before, c :: rest⟩) = [] := by
          rw [hinside _ hz, hnone, List.map_nil]
        rw [List.length_cons] at hn hm
        have hnext : p.findAll (m + 1) (Place.inside left right ⟨before, c :: rest⟩) =
            p.findAll m ⟨c :: (before ++ left), rest ++ right⟩ := findAll_next hnone' rfl
        rw [findAll_next hnone rfl, hnext]
        exact @ih ⟨c :: before, rest⟩ m (hq _ _ [c] hz ⟨rfl, rfl⟩) (by dsimp only; omega)
          (by dsimp only; omega)

/-- No match begins outside. -/
theorem matches_outer (hbegins : p.whole.Begins (¬ outer ·) false) {c : α} {rest : List α}
    (hz : z.after = c :: rest) (hc : outer c) : p.matches_ z = [] := by
  refine List.eq_nil_iff_forall_not_mem.mpr fun found hfound => ?_
  obtain ⟨-, w, hw, hreads⟩ := matches_reads hfound
  rcases hw.begins hbegins with ⟨-, hno⟩ | ⟨d, w, rfl, hd⟩
  · cases hno
  · obtain ⟨rfl, -⟩ := List.cons.inj (hz.symm.trans hreads.after)
    exact hd hc

/-- Before the text there is nothing to find. -/
theorem findAll_skip (hbegins : p.whole.Begins (¬ outer ·) false) {skipped rest before : List α}
    (hout : ∀ c ∈ skipped, outer c) :
    p.findAll (n + skipped.length) ⟨before, skipped ++ rest⟩ =
      p.findAll n ⟨skipped.reverse ++ before, rest⟩ := by
  induction skipped generalizing before with
  | nil => rfl
  | cons c skipped ih =>
    rw [List.length_cons, ← Nat.add_assoc,
      findAll_next (matches_outer hbegins rfl (hout c List.mem_cons_self)) rfl,
      List.reverse_cons, List.append_assoc]
    exact ih fun d hd => hout d (List.mem_cons_of_mem _ hd)

/-- **A text inside another is searched as it is alone**, where no match begins or ends around
it. -/
theorem finditer_inside (hpre : Kept left right p.pre) (hgroup : Kept left right p.group)
    (hpost : Kept left right p.post) (hleft : ∀ c ∈ left, outer c) (hright : ∀ c ∈ right, outer c)
    (hbegins : p.whole.Begins (¬ outer ·) false) (hends : p.whole.Ends (¬ outer ·) false) :
    p.finditer (left.reverse ++ (text ++ right)) = p.finditer text := by
  unfold Pattern.finditer
  have hlen : (left.reverse ++ (text ++ right)).length + 1 = text.length + right.length + 1 +
      left.reverse.length := by
    rw [List.length_append, List.length_append]
    omega
  rw [hlen, findAll_skip hbegins fun c hc => hleft c (List.mem_reverse.mp hc), List.reverse_reverse,
    List.append_nil]
  have hplace : (⟨left, text ++ right⟩ : Place α) = Place.inside left right ⟨[], text⟩ := rfl
  rw [hplace]
  exact findAll_inside (q := fun _ => True) (fun _ _ _ _ _ => trivial)
    (fun z _ => matches_inside hpre hgroup hpost hright hends) hends hright trivial
      (Nat.lt_succ_self _)
    (by dsimp only; omega)

end Matching
