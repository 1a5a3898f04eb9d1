/-
The rows evidence is kept in, what their columns take, and what is read out of
their JSON documents. The JSON column gives back the document it was given.
-/
import ProjectAgent.Evidence.Domain

namespace ProjectAgent.Evidence

inductive StoreError where
  | valueError (text : String)
  | keyError (key : String)
  | typeError
  /-- A column does not take the value. -/
  | dataError
deriving DecidableEq

/-! ## JSON documents -/

inductive JsonValue where
  | null
  | bool (value : Bool)
  | int (value : Int)
  | str (value : String)
deriving DecidableEq

namespace JsonValue

def ofOption {α : Type} (f : α → JsonValue) : Option α → JsonValue
  | none => null
  | some a => f a

def isNull (value : JsonValue) : Bool := value = null

/-- `str(value)`. -/
def toStr : JsonValue → String
  | null => "None"
  | bool true => "True"
  | bool false => "False"
  | int i => toString i
  | str s => s

/-- The value as the string it is. -/
def str? : JsonValue → Option String
  | str s => some s
  | _ => none

/-- `int(value)` of what is an instance of `int`, as `bool` is. -/
def int? : JsonValue → Option Int
  | int i => some i
  | bool b => some (if b then 1 else 0)
  | _ => none

/-- `bool(value)`. -/
def truthy : JsonValue → Bool
  | null => false
  | bool b => b
  | int i => i ≠ 0
  | str s => s ≠ ""

end JsonValue

/-- `int(text)`, of ASCII digits. -/
def intOfText (text : String) : Option Int :=
  let cs := (strip text).toList
  let number (cs : List Char) : Option Nat :=
    -- an underscore stands between two digits
    if cs.isEmpty || cs.head? = some '_' || cs.getLast? = some '_' ||
      (cs.zip cs.tail).contains ('_', '_') then none
    else Decimal.value (cs.filter (· ≠ '_'))
  match cs with
  | '-' :: cs => (number cs).map fun n => -(n : Int)
  | '+' :: cs => (number cs).map Int.ofNat
  | cs => (number cs).map Int.ofNat

theorem isSpace_of_isDigit {c : Char} (h : c.isDigit = true) : isSpace c = false := by
  have hbounds : 48 ≤ c.toNat ∧ c.toNat ≤ 57 := by
    simpa [Char.isDigit, UInt32.le_iff_toNat_le] using h
  unfold isSpace
  simp only [Bool.or_eq_false_iff, Bool.and_eq_false_iff, decide_eq_false_iff_not,
    beq_eq_false_iff_ne]
  omega

/-- A number is read as it is written. -/
theorem intOfText_toString (n : Nat) : intOfText (toString n) = some (n : Int) := by
  have hdigits : (toString n).toList = Nat.toDigits 10 n := by
    rw [Nat.toString_eq_repr, Nat.toList_repr]
  have hall : ∀ c ∈ Nat.toDigits 10 n, c.isDigit = true :=
    fun c hc => Nat.isDigit_of_mem_toDigits (by decide) (by decide) hc
  have hspaces (cs : List Char) (hcs : ∀ c ∈ cs, c.isDigit = true) : cs.dropWhile isSpace = cs := by
    cases cs with
    | nil => rfl
    | cons c cs =>
      refine List.dropWhile_cons_of_neg ?_
      rw [isSpace_of_isDigit (hcs c List.mem_cons_self)]
      exact Bool.false_ne_true
  have hstrip : (strip (toString n)).toList = Nat.toDigits 10 n := by
    unfold strip
    rw [String.toList_ofList, hdigits, hspaces _ hall, hspaces _ fun c hc =>
      hall c (List.mem_reverse.mp hc), List.reverse_reverse]
  have hfilter : (Nat.toDigits 10 n).filter (· ≠ '_') = Nat.toDigits 10 n :=
    List.filter_eq_self.mpr fun c hc => by
    refine decide_eq_true fun heq => ?_
    rw [heq] at hc
    exact Nat.underscore_not_in_toDigits hc
  have hvalue := Decimal.value_toDigits n
  unfold intOfText
  simp only [hstrip]
  cases hcs : Nat.toDigits 10 n with
  | nil => exact absurd hcs Nat.toDigits_ne_nil
  | cons c cs =>
    rw [hcs] at hall hfilter hvalue
    have hc := hall c List.mem_cons_self
    have hplain (d : Char) (hd : d ∈ c :: cs) : d ≠ '_' := fun heq => by
      have := hall d hd
      rw [heq] at this
      exact absurd this (by decide)
    have hlast : (c :: cs).getLast? ≠ some '_' := fun heq => hplain _ (List.mem_of_getLast? heq) rfl
    have hpair : ((c :: cs).zip (c :: cs).tail).contains ('_', '_') = false := by
      rw [Bool.eq_false_iff]
      intro hmem
      exact hplain _ (List.of_mem_zip (List.contains_iff_mem.mp hmem)).1 rfl
    have hnumber : (if (c :: cs).isEmpty || (c :: cs).head? = some '_' || (c :: cs).getLast? =
      some '_' ||
        ((c :: cs).zip (c :: cs).tail).contains ('_', '_') then none
        else Decimal.value ((c :: cs).filter (· ≠ '_'))) = some n := by
      rw [hfilter, hvalue, hpair, decide_eq_false hlast, List.head?_cons,
        decide_eq_false fun heq => hplain c List.mem_cons_self (Option.some.inj heq)]
      rfl
    split
    · next heq =>
      cases heq
      exact absurd hc (by decide)
    · next heq =>
      cases heq
      exact absurd hc (by decide)
    · rw [hnumber]
      rfl

/-! ## Columns -/

/-- What `Numeric(8, 6)` keeps. -/
inductive Numeric where
  | nan
  | number (value : ℚ)
deriving DecidableEq

/-- `Decimal(str(score))` as the column takes it: six digits after the point, and two before it at
most. -/
def Numeric.ofScore : Score → Option Numeric
  | .nan => some .nan
  | .finite q => if |Decimal.round 6 q| < 100 then some (.number (Decimal.round 6 q)) else none
  | .negInf | .posInf => none

def Numeric.toScore : Numeric → Score
  | .nan => .nan
  | .number q => .finite q

/-- A text column takes no null character. -/
def isText (text : String) : Bool := !text.toList.contains '\x00'

structure EvidenceBundle where
  id : UUID
  runId : UUID
  queryText : String

/-- A snapshot, with the score the session is given (`Score`) or the one the table holds
(`Numeric`). -/
structure EvidenceSnapshot (σ : Type) where
  id : UUID
  bundleId : UUID
  projectId : UUID
  documentVersionId : Option UUID
  sourceType : String
  sourceRef : String
  content : String
  rank : Nat
  score : Option σ
  metadataJson : Dict JsonValue

/-- `metadata.get(key)`. -/
def EvidenceSnapshot.value {σ : Type} (row : EvidenceSnapshot σ) (key : String) : JsonValue :=
  (row.metadataJson.lookup key).getD .null

structure EvidenceTables where
  bundles : List EvidenceBundle
  snapshots : List (EvidenceSnapshot Numeric)

/-- What the columns of a snapshot take. -/
def columnsTake (sourceRef content : String) (score : Score) : Bool :=
  isText sourceRef && sourceRef.length ≤ 255 && isText content && (Numeric.ofScore score).isSome

def EvidenceSnapshot.fits (row : EvidenceSnapshot Score) : Bool :=
  columnsTake row.sourceRef row.content (row.score.getD (.finite 0))

/-- The row as the table holds it. -/
def EvidenceSnapshot.stored (row : EvidenceSnapshot Score) : EvidenceSnapshot Numeric :=
  { row with score := row.score.bind Numeric.ofScore }

namespace EvidenceTables

/-- `add` and `flush`. -/
def insertBundle (db : EvidenceTables) (bundle : EvidenceBundle) :
    Except StoreError EvidenceTables :=
  if isText bundle.queryText then .ok { db with
    bundles := bundle :: db.bundles } else .error .dataError

/-- `add` of each row and `flush`; what the rows' foreign keys refer to is there. -/
def insertSnapshots (db : EvidenceTables) (rows : List (EvidenceSnapshot Score)) :
    Except StoreError EvidenceTables :=
  if rows.all (·.fits) then .ok { db with
    snapshots := rows.map (·.stored) ++ db.snapshots } else .error .dataError

/-- A bundle's rows of one type, in their order. -/
def ranked (db : EvidenceTables) (bundleId : UUID) (sourceType : String) :
    List (EvidenceSnapshot Numeric) :=
  List.insertionSort (fun a b => a.rank ≤ b.rank)
    (db.snapshots.filter fun row => row.bundleId == bundleId && row.sourceType == sourceType)

variable {db : EvidenceTables} {rows : List (EvidenceSnapshot Numeric)} {bundleId : UUID}
  {sourceType : String}

/-- **Rows inserted in the order of their ranks are read in that order.** -/
theorem ranked_insert (hfresh : ∀ row ∈ db.snapshots, row.bundleId ≠ bundleId)
    (hrows : ∀ row ∈ rows, row.bundleId = bundleId ∧ row.sourceType = sourceType)
    (hsorted : rows.Pairwise fun a b => a.rank ≤ b.rank) :
    ranked { db with snapshots := rows ++ db.snapshots } bundleId sourceType = rows := by
  have hown : rows.filter (fun row => row.bundleId == bundleId && row.sourceType == sourceType) =
      rows := by
    refine List.filter_eq_self.mpr fun row hrow => ?_
    obtain ⟨hid, htype⟩ := hrows row hrow
    rw [hid, htype, beq_self_eq_true, beq_self_eq_true, Bool.true_and]
  have hother : db.snapshots.filter (fun row => row.bundleId == bundleId && row.sourceType ==
      sourceType) = [] := by
    refine List.filter_eq_nil_iff.mpr fun row hrow => ?_
    rw [beq_false_of_ne (hfresh row hrow), Bool.false_and]
    exact Bool.false_ne_true
  unfold ranked
  rw [List.filter_append, hown, hother, List.append_nil]
  exact hsorted.insertionSort_eq

end EvidenceTables

end ProjectAgent.Evidence
