import Mathlib.Algebra.GroupWithZero.Nat
import TableSteward.Proofs.Derivation

/-!
# Reading conditions back

The text of a conjunction of conditions, as a reader finds it who knows only how one condition looks: a column, an
operator and the names of parameters.  No text is read in two ways, although a range has an `AND` of its own.
What is read from the compiled text of some filters is one condition for each of them, in order, and the parameters
in the order of their numbers.
-/
set_option autoImplicit false

namespace TableSteward

/-! ## Splits -/

/-- The text is at its end or goes on with another kind of character. -/
def Stops (p : Char → Bool) (u : List Char) : Prop := ∀ c ∈ u.head?, p c = false

theorem takeWhile_of_stops {p : Char → Bool} {u : List Char} (h : Stops p u) : u.takeWhile p = [] := by
  cases u with
  | nil => rfl
  | cons c u => exact List.takeWhile_cons_of_neg (by simp [h c rfl])

theorem append_inj_of_stops {p : Char → Bool} {xs ys u v : List Char} (hxs : ∀ c ∈ xs, p c = true)
    (hys : ∀ c ∈ ys, p c = true) (hu : Stops p u) (hv : Stops p v) (h : xs ++ u = ys ++ v) :
    xs = ys ∧ u = v := by
  have hsame : xs = ys := by
    have htaken := congrArg (List.takeWhile p) h
    rw [List.takeWhile_append_of_pos hxs, List.takeWhile_append_of_pos hys, takeWhile_of_stops hu,
      takeWhile_of_stops hv, List.append_nil, List.append_nil] at htaken
    exact htaken
  subst hsame
  exact ⟨rfl, List.append_cancel_left h⟩

instance : DecidablePred IsDigit := fun c => inferInstanceAs (Decidable ('0' ≤ c ∧ c ≤ '9'))

def isNumeric (c : Char) : Bool := decide (IsDigit c)

theorem IsNumeral.isNumeric {s : String} (h : IsNumeral s) : ∀ c ∈ s.toList, isNumeric c = true :=
  fun c hc => decide_eq_true (h.2 c hc)

theorem IsName.unquoted {s : String} (h : IsName s) : ∀ c ∈ s.toList, (c != '"') = true := by
  obtain ⟨first, rest, hchars, hfirst, -, hrest⟩ := h
  have hquote : ∀ c, IsInitial c ∨ IsDigit c → c ≠ '"' := by
    rintro _ h rfl
    revert h
    unfold IsInitial IsDigit
    decide
  intro c hc
  rw [hchars] at hc
  rw [bne_iff_ne]
  rcases List.mem_cons.mp hc with rfl | hc
  · exact hquote c (.inl hfirst)
  · exact hquote c (hrest c hc)

/-! ## Conditions as they are read -/

/-- A name in quotes, or one behind the alias of a table. -/
inductive IsColumn : String → Prop
  | plain {name : String} : IsName name → IsColumn ("\"" ++ name ++ "\"")
  | placed {digits name : String} : IsNumeral digits → IsName name →
      IsColumn ("t" ++ digits ++ "." ++ ("\"" ++ name ++ "\""))

inductive IsPlaceholder : String → Prop
  | numbered {digits : String} : IsNumeral digits → IsPlaceholder (":p" ++ digits)

structure Phrase where
  column : String
  operator : String
  placeholders : List String
  deriving DecidableEq, Repr

namespace Phrase

/-- What stands behind the column of a condition. -/
inductive Tail : String → List String → String → Prop
  | comparison {operator p : String} : operator ∈ ["=", ">", ">=", "<", "<="] → IsPlaceholder p →
      Tail operator [p] (" " ++ operator ++ " " ++ p)
  | range {p q : String} : IsPlaceholder p → IsPlaceholder q →
      Tail "BETWEEN" [p, q] (" BETWEEN " ++ p ++ " AND " ++ q)
  | membership {p : String} : IsPlaceholder p → Tail "= ANY" [p] (" = ANY(" ++ p ++ ")")

inductive Reads : Phrase → String → Prop
  | ofColumn {column operator : String} {placeholders : List String} {tail : String} :
      IsColumn column → Tail operator placeholders tail →
      Reads ⟨column, operator, placeholders⟩ (column ++ tail)
  | containment {column p : String} : IsColumn column → IsPlaceholder p →
      Reads ⟨column, "ILIKE", [p]⟩ ("CAST(" ++ column ++ " AS TEXT) ILIKE " ++ p)

/-- Conditions with `AND` between them. -/
inductive Conjunction : List Phrase → String → Prop
  | none : Conjunction [] ""
  | last {x : Phrase} {s : String} : Reads x s → Conjunction [x] s
  | more {x y : Phrase} {rest : List Phrase} {s t : String} :
      Reads x s → Conjunction (y :: rest) t → Conjunction (x :: y :: rest) (s ++ " AND " ++ t)

end Phrase

/-! ## No text is read in two ways -/

variable {u v : List Char}

theorem IsColumn.append_inj {c d : String} (hc : IsColumn c) (hd : IsColumn d)
    (h : c.toList ++ u = d.toList ++ v) : c = d ∧ u = v := by
  have hquoted : ∀ {name name' : String}, IsName name → IsName name' →
      '"' :: (name.toList ++ '"' :: u) = '"' :: (name'.toList ++ '"' :: v) → name = name' ∧ u = v := by
    intro name name' hname hname' h
    have hstops : ∀ w, Stops (fun c => c != '"') ('"' :: w) := by
      rintro w _ ⟨⟩
      rfl
    obtain ⟨hsame, hrest⟩ := append_inj_of_stops hname.unquoted hname'.unquoted (hstops u) (hstops v)
      (List.cons.inj h).2
    exact ⟨String.toList_inj.mp hsame, (List.cons.inj hrest).2⟩
  cases hc with
  | plain hname =>
      cases hd with
      | plain hname' =>
          obtain ⟨rfl, hrest⟩ := hquoted hname hname' (by simpa using h)
          exact ⟨rfl, hrest⟩
      | placed hdigits hname' => simp at h
  | @placed digits name hdigits hname =>
      cases hd with
      | plain hname' => simp at h
      | @placed digits' name' hdigits' hname' =>
          have h : digits.toList ++ '.' :: '"' :: (name.toList ++ '"' :: u) =
              digits'.toList ++ '.' :: '"' :: (name'.toList ++ '"' :: v) := by simpa using h
          have hstops : ∀ w, Stops isNumeric ('.' :: w) := by
            rintro w _ ⟨⟩
            rfl
          obtain ⟨hsame, hrest⟩ := append_inj_of_stops hdigits.isNumeric hdigits'.isNumeric
            (hstops _) (hstops _) h
          obtain rfl := String.toList_inj.mp hsame
          obtain ⟨rfl, hsame⟩ := hquoted hname hname' (List.cons.inj hrest).2
          exact ⟨rfl, hsame⟩

theorem IsPlaceholder.append_inj {p q : String} (hp : IsPlaceholder p) (hq : IsPlaceholder q)
    (hu : Stops isNumeric u) (hv : Stops isNumeric v) (h : p.toList ++ u = q.toList ++ v) :
    p = q ∧ u = v := by
  cases hp with
  | numbered hdigits =>
      cases hq with
      | numbered hdigits' =>
          obtain ⟨hsame, hrest⟩ := append_inj_of_stops hdigits.isNumeric hdigits'.isNumeric hu hv
            (by simpa using h)
          obtain rfl := String.toList_inj.mp hsame
          exact ⟨rfl, hrest⟩

theorem IsPlaceholder.toList_eq {p : String} (h : IsPlaceholder p) :
    ∃ digits, p.toList = ':' :: 'p' :: digits := by
  cases h with
  | @numbered digits _ => exact ⟨digits.toList, by simp⟩

namespace Phrase

theorem stops_and (w : List Char) : Stops isNumeric (" AND ".toList ++ w) := by
  rintro _ ⟨⟩
  rfl

theorem stops_nil : Stops isNumeric [] := nofun

theorem Tail.append_inj {o o' : String} {ps ps' : List String} {s t : String} (hs : Tail o ps s)
    (ht : Tail o' ps' t) (hu : Stops isNumeric u) (hv : Stops isNumeric v)
    (h : s.toList ++ u = t.toList ++ v) : o = o' ∧ ps = ps' ∧ u = v := by
  have hspace : ∀ w, Stops (fun c => c != ' ') (' ' :: w) := by
    rintro w _ ⟨⟩
    rfl
  have hall : ∀ o ∈ ["=", ">", ">=", "<", "<="], o.toList.all (· != ' ') = true := by decide
  have hwide : ∀ {o : String}, o ∈ ["=", ">", ">=", "<", "<="] → ∀ c ∈ o.toList, (c != ' ') = true :=
    fun ho => List.all_eq_true.mp (hall _ ho)
  cases hs with
  | @comparison _ p ho hp =>
      obtain ⟨digits, hdigits⟩ := hp.toList_eq
      cases ht with
      | @comparison _ q ho' hq =>
          obtain ⟨hsame, hrest⟩ := append_inj_of_stops (hwide ho) (hwide ho') (hspace (p.toList ++ u))
            (hspace (q.toList ++ v)) (by simpa using h)
          obtain rfl := String.toList_inj.mp hsame
          obtain ⟨rfl, rfl⟩ := hp.append_inj hq hu hv (List.cons.inj hrest).2
          exact ⟨rfl, rfl, rfl⟩
      | range hp' hq' =>
          simp only [List.mem_cons, List.not_mem_nil, or_false] at ho
          rcases ho with rfl | rfl | rfl | rfl | rfl <;> simp at h
      | membership hp' =>
          simp only [List.mem_cons, List.not_mem_nil, or_false] at ho
          rcases ho with rfl | rfl | rfl | rfl | rfl <;> simp [hdigits] at h
  | @range p q hp hq =>
      cases ht with
      | comparison ho' hp' =>
          simp only [List.mem_cons, List.not_mem_nil, or_false] at ho'
          rcases ho' with rfl | rfl | rfl | rfl | rfl <;> simp at h
      | @range p' q' hp' hq' =>
          obtain ⟨rfl, hrest⟩ := hp.append_inj hp' (stops_and (q.toList ++ u))
            (stops_and (q'.toList ++ v)) (by simpa using h)
          obtain ⟨rfl, rfl⟩ := hq.append_inj hq' hu hv (List.append_cancel_left hrest)
          exact ⟨rfl, rfl, rfl⟩
      | membership hp' => simp at h
  | @membership p hp =>
      obtain ⟨digits, hdigits⟩ := hp.toList_eq
      cases ht with
      | @comparison _ q ho' hp' =>
          obtain ⟨digits', hdigits'⟩ := hp'.toList_eq
          simp only [List.mem_cons, List.not_mem_nil, or_false] at ho'
          rcases ho' with rfl | rfl | rfl | rfl | rfl <;> simp [hdigits'] at h
      | range hp' hq' => simp at h
      | @membership q hq =>
          have hclose : ∀ w, Stops isNumeric (')' :: w) := by
            rintro w _ ⟨⟩
            rfl
          obtain ⟨rfl, hrest⟩ := hp.append_inj hq (hclose u) (hclose v) (by simpa using h)
          exact ⟨rfl, rfl, (List.cons.inj hrest).2⟩

theorem Reads.append_inj {x y : Phrase} {s t : String} (hs : Reads x s) (ht : Reads y t)
    (hu : Stops isNumeric u) (hv : Stops isNumeric v) (h : s.toList ++ u = t.toList ++ v) :
    x = y ∧ u = v := by
  have hstart : ∀ {c : String}, IsColumn c → ∀ w w' : List Char,
      c.toList ++ w ≠ "CAST(".toList ++ w' := by
    intro c hc w w' h
    cases hc <;> simp at h
  cases hs with
  | ofColumn hc htail =>
      cases ht with
      | ofColumn hc' htail' =>
          obtain ⟨rfl, hrest⟩ := hc.append_inj hc' (by simpa using h)
          obtain ⟨rfl, rfl, rfl⟩ := htail.append_inj htail' hu hv hrest
          exact ⟨rfl, rfl⟩
      | containment hc' hp' =>
          simp only [String.toList_append, List.append_assoc] at h
          exact absurd h (hstart hc _ _)
  | @containment c p hc hp =>
      cases ht with
      | ofColumn hc' htail' =>
          simp only [String.toList_append, List.append_assoc] at h
          exact absurd h.symm (hstart hc' _ _)
      | @containment c' p' hc' hp' =>
          simp only [String.toList_append, List.append_assoc] at h
          obtain ⟨rfl, hrest⟩ := hc.append_inj hc' (List.append_cancel_left h)
          obtain ⟨rfl, rfl⟩ := hp.append_inj hp' hu hv (List.append_cancel_left hrest)
          exact ⟨rfl, rfl⟩

theorem Reads.ne_empty {x : Phrase} {s : String} (h : Reads x s) : s ≠ "" := by
  intro hempty
  have hchars := congrArg String.toList hempty
  cases h with
  | ofColumn hc htail => cases hc <;> simp at hchars
  | containment hc hp => simp at hchars

/-- A conjunction is read in one way only. -/
theorem Conjunction.unique {xs ys : List Phrase} {s : String} (hx : Conjunction xs s)
    (hy : Conjunction ys s) : xs = ys := by
  -- The texts are kept apart, so that the induction can follow the conditions from the left.
  suffices hsplit : ∀ {t : String}, Conjunction ys t → s.toList = t.toList → xs = ys from hsplit hy rfl
  clear hy
  induction hx generalizing ys with
  | none =>
      intro t hy hsame
      cases hy with
      | none => rfl
      | last hreads => exact absurd (String.toList_inj.mp hsame).symm hreads.ne_empty
      | more hreads hrest => simp at hsame
  | @last x s hs =>
      intro t hy hsame
      cases hy with
      | none => exact absurd (String.toList_inj.mp hsame) hs.ne_empty
      | last hreads =>
          obtain ⟨rfl, -⟩ := hs.append_inj hreads stops_nil stops_nil (by simpa using hsame)
          rfl
      | @more _ _ _ s' t' hreads hrest =>
          obtain ⟨-, hnil⟩ := hs.append_inj hreads stops_nil (stops_and t'.toList) (by simpa using hsame)
          exact nomatch hnil
  | @more x y rest s t hs _ ih =>
      intro text hy hsame
      cases hy with
      | none => simp at hsame
      | last hreads =>
          obtain ⟨-, hnil⟩ := hs.append_inj hreads (stops_and t.toList) stops_nil (by simpa using hsame)
          exact nomatch hnil
      | @more _ _ _ s' t' hreads hrest =>
          obtain ⟨rfl, hand⟩ := hs.append_inj hreads (stops_and t.toList) (stops_and t'.toList)
            (by simpa using hsame)
          rw [ih hrest (List.append_cancel_left hand)]

end Phrase

/-! ## What is written -/

theorem ColumnExpr.isColumn (e : ColumnExpr) : IsColumn e.sql := by
  unfold ColumnExpr.sql
  cases e.slot with
  | none => exact .plain e.column.isName
  | some slot =>
      have halias : ∃ n : Nat, slot.tableAlias = "t" ++ toString n := by
        cases slot
        · exact ⟨1, rfl⟩
        · exact ⟨2, rfl⟩
        · exact ⟨3, rfl⟩
      obtain ⟨n, hn⟩ := halias
      dsimp only
      rw [hn]
      exact .placed (isNumeral_toString n) e.column.isName

theorem placeholder_eq (n : Nat) : placeholder n = ":p" ++ toString n := by
  unfold placeholder paramName
  rw [← String.append_assoc]
  rfl

theorem isPlaceholder (n : Nat) : IsPlaceholder (placeholder n) := by
  rw [placeholder_eq]
  exact .numbered (isNumeral_toString n)

/-- The operator as conditions are written with it. -/
def Operator.sql : Operator → String
  | .compare c => c.sql
  | .contains => "ILIKE"
  | .between => "BETWEEN"
  | .oneOf => "= ANY"

namespace Condition

def operator : Condition → Operator
  | compare _ c _ => .compare c
  | contains _ _ => .contains
  | between _ _ _ => .between
  | oneOf _ _ => .oneOf

def phrase (n : Nat) (c : Condition) : Phrase :=
  ⟨c.column.sql, c.operator.sql, (List.range' n c.bound.length).map fun i : Nat => placeholder i⟩

theorem reads (n : Nat) (c : Condition) : Phrase.Reads (c.phrase n) (c.sql n) := by
  cases c with
  | compare column operator v =>
      have hoperator : operator.sql ∈ ["=", ">", ">=", "<", "<="] := by cases operator <;> decide
      have h := Phrase.Reads.ofColumn column.isColumn (.comparison hoperator (isPlaceholder n))
      simp only [String.append_assoc] at h
      simp only [sql, String.append_assoc]
      exact h
  | contains column pattern => exact .containment column.isColumn (isPlaceholder n)
  | between column low high =>
      have h := Phrase.Reads.ofColumn column.isColumn (.range (isPlaceholder n) (isPlaceholder (n + 1)))
      simp only [String.append_assoc] at h
      simp only [sql, String.append_assoc]
      exact h
  | oneOf column vs =>
      have h := Phrase.Reads.ofColumn column.isColumn (.membership (isPlaceholder n))
      simp only [String.append_assoc] at h
      simp only [sql, String.append_assoc]
      exact h

end Condition

namespace Where

def phrasesFrom : Nat → List Condition → List Phrase
  | _, [] => []
  | n, c :: rest => c.phrase n :: phrasesFrom (n + c.bound.length) rest

theorem conjunction_phrasesFrom :
    ∀ (cs : List Condition) (n : Nat),
      Phrase.Conjunction (phrasesFrom n cs) (" AND ".intercalate (sqlFrom n cs)) := by
  intro cs
  induction cs with
  | nil => intro n; exact .none
  | cons c rest ih =>
      intro n
      cases rest with
      | nil => exact .last (c.reads n)
      | cons d rest =>
          have hrest := ih (n + c.bound.length)
          rw [sqlFrom, sqlFrom, String.intercalate_cons_cons]
          exact .more (c.reads n) hrest

theorem placeholders_phrasesFrom :
    ∀ (cs : List Condition) (n : Nat), (phrasesFrom n cs).flatMap Phrase.placeholders =
      (List.range' n (cs.flatMap Condition.bound).length).map fun i : Nat => placeholder i := by
  intro cs
  induction cs with
  | nil => intro n; rfl
  | cons c rest ih =>
      intro n
      rw [phrasesFrom, List.flatMap_cons, ih, List.flatMap_cons, List.length_append, List.range'_append_1.symm,
        List.map_append]
      rfl

theorem keys_numbered :
    ∀ (vs : List Value) (n : Nat),
      (numbered n vs).keys = (List.range' n vs.length).map fun i : Nat => paramName i := by
  intro vs
  induction vs with
  | nil => intro n; rfl
  | cons v rest ih => intro n; exact congrArg (paramName n :: ·) (ih (n + 1))

theorem values_numbered : ∀ (vs : List Value) (n : Int), (numbered n vs).map Prod.snd = vs := by
  intro vs
  induction vs with
  | nil => intro n; rfl
  | cons v rest ih => intro n; exact congrArg (v :: ·) (ih (n + 1))

end Where

/-! ## What filters come to -/

/-- A bound of a filter: an instant if it is written like a date, and otherwise the value itself. -/
inductive Bounded : Value → Bool → Value → Prop
  | instant {s : String} {upper : Bool} {t : Timestamp} : (Value.text s).isDateLike = true →
      Bound.ofText s upper = .ok t → Bounded (.text s) upper (.timestamp t)
  | same {v : Value} {upper : Bool} : v.isDateLike = false → Bounded v upper v

theorem bounded_of_ofValue {v w : Value} {upper : Bool} (h : Bound.ofValue v upper = .ok w) :
    Bounded v upper w := by
  cases v with
  | text s =>
      by_cases hdate : (DateText.read? s).isSome = true
      · rw [Bound.ofValue, if_pos hdate] at h
        obtain ⟨t, ht, h⟩ := Result.of_bind_ok h
        cases h
        exact .instant hdate ht
      · rw [Bound.ofValue, if_neg hdate] at h
        cases h
        exact .same (Bool.eq_false_iff.mpr hdate)
  | _ =>
      cases h
      exact .same rfl

/-- The values that a filter binds under its operator. -/
inductive Binds (f : FilterSpec) : Operator → List Value → Prop
  | compare {c : Comparison} {v : Value} : Bounded f.value c.isUpper v → Binds f (.compare c) [v]
  | contains : Binds f .contains [.text (Condition.containsPattern f.value.display)]
  | between {a b low high : Value} : f.value = .list [a, b] → Bounded a false low →
      Bounded b true high → Binds f .between [low, high]
  | oneOf {vs : List Value} : f.value = .list vs → Binds f .oneOf [.list vs]

namespace FilterSpec

/-- The number of parameters of the filter. -/
def arity (f : FilterSpec) : Nat := if f.operator = Operator.between.name then 2 else 1

theorem value_of_scalars {f : FilterSpec} {vs : List Value} (h : f.scalars = .ok vs) :
    f.value = .list vs := by
  unfold scalars at h
  cases hvalue : f.value with
  | list items =>
      rw [hvalue] at h
      dsimp only at h
      by_cases hall : items.all Value.isScalar = true
      · rw [if_pos hall] at h
        cases h
        rfl
      · rw [if_neg hall] at h
        exact nomatch h
  | _ =>
      rw [hvalue] at h
      exact nomatch h

theorem value_of_scalar {f : FilterSpec} {v : Value} (h : f.scalar = .ok v) : f.value = v := by
  unfold scalar at h
  by_cases hscalar : f.value.isScalar = true
  · rw [if_pos hscalar] at h
    cases h
    rfl
  · rw [if_neg hscalar] at h
    exact nomatch h

end FilterSpec

theorem Operator.name_of_ofName {s : String} {op : Operator} (h : Operator.ofName s = .ok op) :
    op.name = s := by
  unfold ofName at h
  cases hfound : ofName? s with
  | none =>
      rw [hfound] at h
      exact nomatch h
  | some op' =>
      rw [hfound] at h
      cases h
      have hfound : all.find? (fun op => op.name == s) = some op := hfound
      have hname := List.find?_some hfound
      exact beq_iff_eq.mp hname

namespace Condition

theorem of_ofFilter {f : FilterSpec} {column : ColumnExpr} {op : Operator} {c : Condition}
    (h : ofFilter f column op = .ok c) :
    c.column = column ∧ c.operator = op ∧ Binds f op c.bound := by
  cases op with
  | compare comparison =>
      obtain ⟨v, hv, h⟩ := Result.of_bind_ok h
      obtain ⟨bound, hbound, h⟩ := Result.of_bind_ok h
      cases h
      obtain rfl := FilterSpec.value_of_scalar hv
      exact ⟨rfl, rfl, .compare (bounded_of_ofValue hbound)⟩
  | contains =>
      obtain ⟨v, hv, h⟩ := Result.of_bind_ok h
      cases h
      obtain rfl := FilterSpec.value_of_scalar hv
      exact ⟨rfl, rfl, .contains⟩
  | between =>
      obtain ⟨vs, hvs, h⟩ := Result.of_bind_ok h
      have hvalue := FilterSpec.value_of_scalars hvs
      rcases vs with _ | ⟨a, _ | ⟨b, _ | ⟨d, rest⟩⟩⟩
      · exact nomatch h
      · exact nomatch h
      · obtain ⟨low, hlow, h⟩ := Result.of_bind_ok h
        obtain ⟨high, hhigh, h⟩ := Result.of_bind_ok h
        cases h
        exact ⟨rfl, rfl, .between hvalue (bounded_of_ofValue hlow) (bounded_of_ofValue hhigh)⟩
      · exact nomatch h
  | oneOf =>
      obtain ⟨vs, hvs, h⟩ := Result.of_bind_ok h
      have hvalue := FilterSpec.value_of_scalars hvs
      cases vs with
      | nil => exact nomatch h
      | cons v rest =>
          cases h
          exact ⟨rfl, rfl, .oneOf hvalue⟩

end Condition

theorem Binds.length_eq {f : FilterSpec} {op : Operator} {vs : List Value}
    (hop : Operator.ofName f.operator = .ok op) (h : Binds f op vs) : vs.length = f.arity := by
  have hname := Operator.name_of_ofName hop
  unfold FilterSpec.arity
  rw [← hname]
  cases h with
  | @compare c v _ => cases c <;> rfl
  | contains => rfl
  | between _ _ _ => rfl
  | oneOf _ => rfl

/-- A condition that stands for a filter: its column as it is resolved, and its operator. -/
def Phrase.StandsFor (resolve : Resolver) (f : FilterSpec) (x : Phrase) : Prop :=
  ∃ op column, Operator.ofName f.operator = .ok op ∧ resolve f.column = .ok column ∧
    x.column = column.sql ∧ x.operator = op.sql

namespace Where

/-- The filters as they can be read from their text, with one condition for each of them. -/
structure ReadBack (resolve : Resolver) (fs : List FilterSpec) (offset : Nat) (w : Where)
    (phrases : List Phrase) : Prop where
  text : Phrase.Conjunction phrases w.sql
  only : ∀ others, Phrase.Conjunction others w.sql → others = phrases
  conditions : List.Forall₂ (Phrase.StandsFor resolve) fs phrases
  placeholders : phrases.flatMap Phrase.placeholders =
    (List.range' (offset + 1) (fs.map FilterSpec.arity).sum).map fun i : Nat => ":p" ++ toString i
  keys : w.params.keys =
    (List.range' (offset + 1) (fs.map FilterSpec.arity).sum).map fun i : Nat => "p" ++ toString i
  values : ∃ values, List.Forall₂
      (fun f vs => ∃ op, Operator.ofName f.operator = .ok op ∧ Binds f op vs) fs values ∧
    w.params.map Prod.snd = values.flatten

variable {resolve : Resolver} {fs : List FilterSpec} {cs : List Condition}

/-- A condition of a filter. -/
def Compiles (resolve : Resolver) (f : FilterSpec) (c : Condition) : Prop :=
  ∃ op, Operator.ofName f.operator = .ok op ∧ resolve f.column = .ok c.column ∧ c.operator = op ∧
    Binds f op c.bound

theorem compiles_of_condition {f : FilterSpec} {c : Condition} (h : condition resolve f = .ok c) :
    Compiles resolve f c := by
  obtain ⟨op, hop, h⟩ := Result.of_bind_ok h
  obtain ⟨column, hcolumn, h⟩ := Result.of_bind_ok h
  obtain ⟨rfl, hoperator, hbinds⟩ := Condition.of_ofFilter h
  exact ⟨op, hop, hcolumn, hoperator, hbinds⟩

theorem compiled_of_ofValues {offset : Int} {w : Where}
    (h : ofValues resolve (fs.map FilterSpec.toValue) offset = .ok w) :
    ∃ cs, w = ⟨cs, offset⟩ ∧ List.Forall₂ (Compiles resolve) fs cs := by
  obtain ⟨cs, hcs, h⟩ := Result.of_bind_ok h
  cases h
  have hall := List.forall₂_map_left_iff.mp (Result.forall₂_of_mapM_ok hcs)
  exact ⟨cs, rfl, hall.imp fun f c hc => compiles_of_condition hc⟩

theorem standsFor_phrasesFrom (h : List.Forall₂ (Compiles resolve) fs cs) :
    ∀ n, List.Forall₂ (Phrase.StandsFor resolve) fs (phrasesFrom n cs) := by
  induction h with
  | nil => intro n; exact .nil
  | @cons f c fs cs hc _ ih =>
      intro n
      obtain ⟨op, hop, hcolumn, hoperator, -⟩ := hc
      exact .cons ⟨op, c.column, hop, hcolumn, rfl, congrArg Operator.sql hoperator⟩ (ih _)

theorem length_bound (h : List.Forall₂ (Compiles resolve) fs cs) :
    (cs.flatMap Condition.bound).length = (fs.map FilterSpec.arity).sum := by
  induction h with
  | nil => rfl
  | cons hc _ ih =>
      obtain ⟨op, hop, -, -, hbinds⟩ := hc
      rw [List.flatMap_cons, List.length_append, List.map_cons, List.sum_cons, ih, hbinds.length_eq hop]

/-- What is compiled from filters is read back in one way, as these filters; their parameters are numbered from the
offset on and bound to their values. -/
theorem reads_back (resolve : Resolver) (fs : List FilterSpec) (offset : Nat) (w : Where)
    (h : ofValues resolve (fs.map FilterSpec.toValue) offset = .ok w) :
    (∃ phrases, ReadBack resolve fs offset w phrases) ∧ (fs = [] → w.sql = "" ∧ w.params = []) := by
  obtain ⟨cs, rfl, hcs⟩ := compiled_of_ofValues h
  have hlength := length_bound hcs
  have htext : Phrase.Conjunction (phrasesFrom (offset + 1) cs) (sql ⟨cs, offset⟩) :=
    conjunction_phrasesFrom cs (offset + 1)
  refine ⟨⟨phrasesFrom (offset + 1) cs, ?_⟩, ?_⟩
  · refine ⟨htext, fun others hothers => hothers.unique htext, standsFor_phrasesFrom hcs _, ?_, ?_, ?_⟩
    · rw [placeholders_phrasesFrom, hlength]
      exact List.map_congr_left fun i _ => placeholder_eq i
    · rw [← hlength]
      exact keys_numbered _ (offset + 1)
    · refine ⟨cs.map Condition.bound, ?_, values_numbered _ _⟩
      refine List.forall₂_map_right_iff.mpr (hcs.imp ?_)
      rintro f c ⟨op, hop, -, -, hbinds⟩
      exact ⟨op, hop, hbinds⟩
  · rintro rfl
    cases hcs
    exact ⟨rfl, rfl⟩

/-- A range and a text, after another parameter. -/
theorem reads_back_range_and_text :
    ∃ w phrases, ofValues (.ofColumns [.text "age", .text "name"])
        ([⟨"age", "between", .list [.int 1, .int 2]⟩, ⟨"name", "contains", .text "50%"⟩].map
          FilterSpec.toValue) 1 = .ok w ∧
      w.sql = "\"age\" BETWEEN :p2 AND :p3 AND CAST(\"name\" AS TEXT) ILIKE :p4" ∧
      ReadBack (.ofColumns [.text "age", .text "name"])
        [⟨"age", "between", .list [.int 1, .int 2]⟩, ⟨"name", "contains", .text "50%"⟩] 1 w phrases := by
  have hcompiled : ofValues (.ofColumns [.text "age", .text "name"])
      ([⟨"age", "between", .list [.int 1, .int 2]⟩, ⟨"name", "contains", .text "50%"⟩].map
        FilterSpec.toValue) 1 =
      .ok ⟨[.between ⟨none, ⟨"age", by decide⟩⟩ (.int 1) (.int 2),
        .contains ⟨none, ⟨"name", by decide⟩⟩ "%50\\%%"], 1⟩ := by rfl
  obtain ⟨⟨phrases, hphrases⟩, -⟩ := reads_back _ _ 1 _ hcompiled
  exact ⟨_, phrases, hcompiled, by decide, hphrases⟩

end Where

end TableSteward
