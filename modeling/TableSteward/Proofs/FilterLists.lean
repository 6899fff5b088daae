import Mathlib
import TableSteward.Proofs.FilterFaults
import TableSteward.Proofs.KeyedEntries
import TableSteward.Proofs.Result

/-!
# Lists of filters

Filters are compiled one after another, and nothing is carried from one to the next but the number of parameters so
far.  So a list may be cut anywhere: its parts are compiled by themselves, the second with the parameters of the first
counted in, and put together again.  A list that is not compiled has the fault of its first filter that is not, and
that filter has been examined in order: its form, its operator, its column and then its value.
-/
set_option autoImplicit false

namespace TableSteward

/-! ## Faults of values -/

/-- A list of scalars, as a range and a choice need it. -/
def Value.Lists (v : Value) (vs : List Value) : Prop := v = .list vs ∧ ∀ w ∈ vs, w.isScalar = true

namespace FilterSpec

variable {f : FilterSpec} {e : Fault}

theorem scalar_ok_iff {v : Value} : f.scalar = .ok v ↔ f.value = v ∧ v.isScalar = true := by
  constructor
  · intro h
    have hvalue := value_of_scalar h
    rw [scalar] at h
    by_cases hscalar : f.value.isScalar = true
    · exact ⟨hvalue, hvalue ▸ hscalar⟩
    · rw [if_neg hscalar] at h
      cases h
  · rintro ⟨rfl, hscalar⟩
    rw [scalar, if_pos hscalar]

theorem scalar_error_iff : f.scalar = .error e ↔
    f.value.isScalar = false ∧ e = .refused (.invalidValue (.needsOneValue f.operator f.column)) := by
  rw [scalar]
  cases f.value.isScalar with
  | true => simp
  | false => simp [refuse, eq_comm]

theorem scalars_ok_iff {vs : List Value} : f.scalars = .ok vs ↔ f.value.Lists vs :=
  ⟨fun h => ⟨value_of_scalars h, f.isScalar_of_scalars h⟩, fun h => f.scalars_of_value h.1 h.2⟩

theorem scalars_error_iff : f.scalars = .error e ↔
    (∀ vs, ¬ f.value.Lists vs) ∧ e = .refused (.invalidValue (.needsList f.operator f.column)) := by
  have hcases : (∃ vs, f.scalars = .ok vs) ∨
      f.scalars = .error (.refused (.invalidValue (.needsList f.operator f.column))) := by
    unfold scalars
    split
    · dsimp only
      split
      · exact .inl ⟨_, rfl⟩
      · exact .inr rfl
    · exact .inr rfl
  simp only [Result.error_iff_of_cases hcases, ne_eq, scalars_ok_iff]

end FilterSpec

def Operator.takesList : Operator → Bool
  | .between | .oneOf => true
  | .compare _ | .contains => false

/-- What is wrong with the value of a filter under its operator: first its kind, then the number of values, and then
each bound in turn. -/
inductive Operator.Rejects (f : FilterSpec) : Operator → Fault → Prop
  | notOneValue {op : Operator} : op.takesList = false → f.value.isScalar = false →
      Rejects f op (.refused (.invalidValue (.needsOneValue f.operator f.column)))
  | notAList {op : Operator} : op.takesList = true → (∀ vs, ¬ f.value.Lists vs) →
      Rejects f op (.refused (.invalidValue (.needsList f.operator f.column)))
  | notTwoValues {vs : List Value} : f.value.Lists vs → vs.length ≠ 2 →
      Rejects f .between (.refused (.invalidValue (.needsTwoValues f.column vs.length)))
  | noValue : f.value = .list [] → Rejects f .oneOf (.refused (.invalidValue (.needsSomeValue f.column)))
  | bound {c : Comparison} {e : Fault} : f.value.isScalar = true →
      Bound.ofValue f.value c.isUpper = .error e → Rejects f (.compare c) e
  | low {v w : Value} {e : Fault} : f.value.Lists [v, w] → Bound.ofValue v false = .error e →
      Rejects f .between e
  | high {v w low : Value} {e : Fault} : f.value.Lists [v, w] → Bound.ofValue v false = .ok low →
      Bound.ofValue w true = .error e → Rejects f .between e

namespace Condition

variable {f : FilterSpec} {column : ColumnExpr} {e : Fault}

theorem ofFilter_compare_error_iff {c : Comparison} :
    ofFilter f column (.compare c) = .error e ↔ Operator.Rejects f (.compare c) e := by
  rw [ofFilter, Result.bind_error_iff, FilterSpec.scalar_error_iff]
  constructor
  · rintro (⟨hscalar, rfl⟩ | ⟨v, hv, h⟩)
    · exact .notOneValue rfl hscalar
    · obtain ⟨rfl, hscalar⟩ := FilterSpec.scalar_ok_iff.mp hv
      rcases Result.bind_error_iff.mp h with hbound | ⟨_, -, h⟩
      · exact .bound hscalar hbound
      · cases h
  · intro h
    cases h with
    | notOneValue _ hscalar => exact .inl ⟨hscalar, rfl⟩
    | notAList hop _ => cases hop
    | bound hscalar hbound =>
        exact .inr ⟨f.value, FilterSpec.scalar_ok_iff.mpr ⟨rfl, hscalar⟩, Result.bind_error_iff.mpr (.inl hbound)⟩

theorem ofFilter_contains_error_iff :
    ofFilter f column .contains = .error e ↔ Operator.Rejects f .contains e := by
  rw [ofFilter, Result.bind_error_iff, FilterSpec.scalar_error_iff]
  constructor
  · rintro (⟨hscalar, rfl⟩ | ⟨v, -, h⟩)
    · exact .notOneValue rfl hscalar
    · cases h
  · intro h
    cases h with
    | notOneValue _ hscalar => exact .inl ⟨hscalar, rfl⟩
    | notAList hop _ => cases hop

theorem ofFilter_oneOf_error_iff :
    ofFilter f column .oneOf = .error e ↔ Operator.Rejects f .oneOf e := by
  rw [ofFilter, Result.bind_error_iff, FilterSpec.scalars_error_iff]
  constructor
  · rintro (⟨hnone, rfl⟩ | ⟨vs, hvs, h⟩)
    · exact .notAList rfl hnone
    · cases vs with
      | nil =>
          obtain rfl := Except.error.inj h
          exact .noValue (FilterSpec.value_of_scalars hvs)
      | cons v rest => cases h
  · intro h
    cases h with
    | notOneValue hop _ => cases hop
    | notAList _ hnone => exact .inl ⟨hnone, rfl⟩
    | noValue hvalue => exact .inr ⟨[], FilterSpec.scalars_ok_iff.mpr ⟨hvalue, by simp⟩, rfl⟩

theorem ofFilter_between_error_iff :
    ofFilter f column .between = .error e ↔ Operator.Rejects f .between e := by
  rw [ofFilter, Result.bind_error_iff, FilterSpec.scalars_error_iff]
  constructor
  · rintro (⟨hnone, rfl⟩ | ⟨vs, hvs, h⟩)
    · exact .notAList rfl hnone
    · have hlists := FilterSpec.scalars_ok_iff.mp hvs
      rcases vs with _ | ⟨v, _ | ⟨w, _ | ⟨third, rest⟩⟩⟩
      · obtain rfl := Except.error.inj h
        exact .notTwoValues hlists (by simp)
      · obtain rfl := Except.error.inj h
        exact .notTwoValues hlists (by simp)
      · rcases Result.bind_error_iff.mp h with hlow | ⟨low, hlow, h⟩
        · exact .low hlists hlow
        · rcases Result.bind_error_iff.mp h with hhigh | ⟨_, -, h⟩
          · exact .high hlists hlow hhigh
          · cases h
      · obtain rfl := Except.error.inj h
        exact .notTwoValues hlists (by simp)
  · intro h
    cases h with
    | notOneValue hop _ => cases hop
    | notAList _ hnone => exact .inl ⟨hnone, rfl⟩
    | @notTwoValues vs hlists hcount =>
        refine .inr ⟨vs, FilterSpec.scalars_ok_iff.mpr hlists, ?_⟩
        rcases vs with _ | ⟨v, _ | ⟨w, _ | ⟨third, rest⟩⟩⟩
        · rfl
        · rfl
        · simp at hcount
        · rfl
    | @low v w _ hlists hlow =>
        exact .inr ⟨[v, w], FilterSpec.scalars_ok_iff.mpr hlists, Result.bind_error_iff.mpr (.inl hlow)⟩
    | @high v w low _ hlists hlow hhigh =>
        refine .inr ⟨[v, w], FilterSpec.scalars_ok_iff.mpr hlists, ?_⟩
        exact Result.bind_error_iff.mpr (.inr ⟨low, hlow, Result.bind_error_iff.mpr (.inl hhigh)⟩)

theorem ofFilter_error_iff {op : Operator} : ofFilter f column op = .error e ↔ op.Rejects f e := by
  cases op with
  | compare c => exact ofFilter_compare_error_iff
  | contains => exact ofFilter_contains_error_iff
  | between => exact ofFilter_between_error_iff
  | oneOf => exact ofFilter_oneOf_error_iff

end Condition

/-! ## Faults of filters -/

/-- The first thing wrong with a filter that a document holds. -/
inductive FilterFault (resolve : Resolver) (filter : Value) : Fault → Prop
  | form {e : Fault} : (FilterSpec.check .document filter).run = .error e → FilterFault resolve filter e
  | operator {f : FilterSpec} : (FilterSpec.check .document filter).run = .ok f →
      (∀ op : Operator, op.name ≠ f.operator) →
      FilterFault resolve filter (.refused (.invalidOperator f.operator))
  | column {f : FilterSpec} {op : Operator} {e : Fault} : (FilterSpec.check .document filter).run = .ok f →
      op.name = f.operator → resolve f.column = .error e → FilterFault resolve filter e
  | value {f : FilterSpec} {op : Operator} {column : ColumnExpr} {e : Fault} :
      (FilterSpec.check .document filter).run = .ok f → op.name = f.operator →
      resolve f.column = .ok column → op.Rejects f e → FilterFault resolve filter e

namespace Operator

variable {s : String} {op : Operator} {e : Fault}

theorem ofName_ok_iff : ofName s = .ok op ↔ op.name = s :=
  ⟨name_of_ofName, fun h => h ▸ op.ofName_name⟩

theorem ofName_error_iff :
    ofName s = .error e ↔ (∀ op : Operator, op.name ≠ s) ∧ e = .refused (.invalidOperator s) := by
  have hcases : (∃ op, ofName s = .ok op) ∨ ofName s = .error (.refused (.invalidOperator s)) := by
    unfold ofName
    split
    · exact .inl ⟨_, rfl⟩
    · exact .inr rfl
  simp only [Result.error_iff_of_cases hcases, ne_eq, ofName_ok_iff]

end Operator

namespace Where

variable {resolve : Resolver} {filter : Value} {filters : List Value} {k : Int} {e : Fault}

/-- The condition of a filter that a document holds. -/
def conditionOf (resolve : Resolver) (filter : Value) : Result Condition := do
  let f ← (FilterSpec.check .document filter).run
  condition resolve f

theorem conditionOf_toValue (f : FilterSpec) : conditionOf resolve f.toValue = condition resolve f := rfl

theorem conditionOf_error_iff : conditionOf resolve filter = .error e ↔ FilterFault resolve filter e := by
  rw [conditionOf, Result.bind_error_iff]
  simp only [condition, Result.bind_error_iff, Operator.ofName_error_iff, Operator.ofName_ok_iff,
    Condition.ofFilter_error_iff]
  constructor
  · rintro (hform | ⟨f, hf, ⟨hnone, rfl⟩ | ⟨op, hop, hcolumn | ⟨column, hcolumn, hvalue⟩⟩⟩)
    · exact .form hform
    · exact .operator hf hnone
    · exact .column hf hop hcolumn
    · exact .value hf hop hcolumn hvalue
  · intro h
    cases h with
    | form hform => exact .inl hform
    | @operator f hf hnone => exact .inr ⟨f, hf, .inl ⟨hnone, rfl⟩⟩
    | @column f op _ hf hop hcolumn => exact .inr ⟨f, hf, .inr ⟨op, hop, .inl hcolumn⟩⟩
    | @value f op column _ hf hop hcolumn hvalue =>
        exact .inr ⟨f, hf, .inr ⟨op, hop, .inr ⟨column, hcolumn, hvalue⟩⟩⟩

theorem ofValues_eq (resolve : Resolver) (filters : List Value) (k : Int) :
    ofValues resolve filters k = (filters.mapM (conditionOf resolve) >>= fun cs => .ok (Where.mk cs k)) := rfl

theorem ofValues_ok_iff {w : Where} : ofValues resolve filters k = .ok w ↔
    ∃ cs, filters.mapM (conditionOf resolve) = .ok cs ∧ w = ⟨cs, k⟩ := by
  simp only [ofValues_eq, Result.bind_ok_iff, Except.ok.injEq, eq_comm (a := w)]

theorem ofValues_error_iff :
    ofValues resolve filters k = .error e ↔ filters.mapM (conditionOf resolve) = .error e := by
  simp [ofValues_eq, Result.bind_error_iff]

theorem exists_ofValues_iff : (∃ w, ofValues resolve filters k = .ok w) ↔
    ∃ cs, filters.mapM (conditionOf resolve) = .ok cs := by
  simp [ofValues_ok_iff]

/-! ## Parts of a list -/

theorem sqlFrom_append (n : Int) (cs ds : List Condition) :
    sqlFrom n (cs ++ ds) = sqlFrom n cs ++ sqlFrom (n + (cs.flatMap Condition.bound).length) ds := by
  induction cs generalizing n with
  | nil => simp [sqlFrom]
  | cons c rest ih =>
      rw [List.cons_append, sqlFrom, sqlFrom, ih, List.flatMap_cons, List.length_append, List.cons_append]
      congr 3
      omega

theorem numbered_append (n : Int) (vs ws : List Value) :
    numbered n (vs ++ ws) = numbered n vs ++ numbered (n + vs.length) ws := by
  induction vs generalizing n with
  | nil => simp [numbered]
  | cons v rest ih =>
      rw [List.cons_append, numbered, numbered, ih, List.length_cons, List.cons_append]
      congr 3
      omega

theorem length_params (w : Where) : w.params.length = (w.conditions.flatMap Condition.bound).length := by
  rw [← List.length_map Prod.snd, params, values_numbered]

theorem sqlFrom_eq_nil_iff {n : Int} {cs : List Condition} : sqlFrom n cs = [] ↔ cs = [] := by
  cases cs with
  | nil => simp [sqlFrom]
  | cons c rest => simp [sqlFrom]

end Where

theorem Condition.sql_ne_empty (n : Int) (c : Condition) : c.sql n ≠ "" := by
  cases c with
  | compare column _ _ => simp [sql, String.append_eq_empty_iff]
  | contains column _ => simp [sql, String.append_eq_empty_iff]
  | between column _ _ => simp [sql, String.append_eq_empty_iff]
  | oneOf column _ => simp [sql, String.append_eq_empty_iff]

theorem paramName_inj {m n : Int} : paramName m = paramName n ↔ m = n := by
  constructor
  · intro h
    have htexts : toString m = toString n := (String.append_right_inj _).mp h
    exact Int.repr_injective htexts
  · rintro rfl
    rfl

namespace Where

theorem sql_eq_empty_iff {w : Where} : w.sql = "" ↔ w.conditions = [] := by
  unfold sql
  constructor
  · intro h
    rcases hconditions : w.conditions with _ | ⟨c, _ | ⟨d, rest⟩⟩
    · rfl
    · rw [hconditions, sqlFrom, sqlFrom, String.intercalate_singleton] at h
      exact absurd h (c.sql_ne_empty _)
    · rw [hconditions, sqlFrom, sqlFrom, String.intercalate_cons_cons, String.append_eq_empty_iff,
        String.append_eq_empty_iff] at h
      exact absurd h.1.1 (c.sql_ne_empty _)
  · intro h
    rw [h]
    rfl

theorem mem_keys_numbered {name : String} {n : Int} {vs : List Value} :
    name ∈ (numbered n vs).keys ↔ ∃ i : Nat, i < vs.length ∧ name = paramName (n + i) := by
  induction vs generalizing n with
  | nil => simp [numbered, Entries.keys]
  | cons v rest ih =>
      rw [numbered, Entries.keys_cons, List.mem_cons, ih]
      constructor
      · rintro (rfl | ⟨i, hi, rfl⟩)
        · exact ⟨0, by simp, by simp⟩
        · refine ⟨i + 1, by simp [hi], ?_⟩
          congr 1
          push_cast
          omega
      · rintro ⟨i, hi, rfl⟩
        cases i with
        | zero => exact .inl (by simp)
        | succ i =>
            refine .inr ⟨i, by simpa using hi, ?_⟩
            congr 1
            push_cast
            omega

/-- Two parts of a condition put together: both hold, and each has parameters of its own. -/
structure Joins (u v w : Where) : Prop where
  text : w.sql = if u.sql = "" then v.sql else if v.sql = "" then u.sql else u.sql ++ " AND " ++ v.sql
  params : w.params = u.params ++ v.params
  apart : ∀ name ∈ u.params.keys, name ∉ v.params.keys

theorem joins_append (cs ds : List Condition) (k : Int) :
    Joins ⟨cs, k⟩ ⟨ds, k + (params ⟨cs, k⟩).length⟩ ⟨cs ++ ds, k⟩ := by
  rw [length_params]
  have hoffset : k + 1 + ((cs.flatMap Condition.bound).length : Int) =
      k + (cs.flatMap Condition.bound).length + 1 := by omega
  constructor
  case text =>
    simp only [sql_eq_empty_iff]
    by_cases hcs : cs = []
    · simp [hcs]
    by_cases hds : ds = []
    · rw [if_neg hcs, if_pos hds, hds, List.append_nil]
    rw [if_neg hcs, if_neg hds, sql, sqlFrom_append, String.intercalate_append_of_ne_nil, hoffset]
    · rfl
    · exact mt sqlFrom_eq_nil_iff.mp hcs
    · exact mt sqlFrom_eq_nil_iff.mp hds
  case params =>
    rw [params, List.flatMap_append, numbered_append, hoffset]
    rfl
  case apart =>
    intro name hfirst hsecond
    obtain ⟨i, hi, rfl⟩ := mem_keys_numbered.mp hfirst
    obtain ⟨j, hj, hsame⟩ := mem_keys_numbered.mp hsecond
    rw [paramName_inj] at hsame
    dsimp only at hi hsame
    omega

variable (resolve : Resolver) (fs gs : List Value) (k : Int)

/-- A list of filters is compiled just if its parts are, the second with the parameters of the first counted in, and is
then both of them put together.  Otherwise it has the fault of its first filter that is not compiled. -/
theorem ofValues_append :
    ((∃ w, ofValues resolve (fs ++ gs) k = .ok w) ↔
      ∃ u v, ofValues resolve fs k = .ok u ∧ ofValues resolve gs (k + u.params.length) = .ok v) ∧
    (∀ w, ofValues resolve (fs ++ gs) k = .ok w →
      ∃ u v, ofValues resolve fs k = .ok u ∧ ofValues resolve gs (k + u.params.length) = .ok v ∧ u.Joins v w) ∧
    (∀ e, ofValues resolve (fs ++ gs) k = .error e ↔
      ∃ before filter after, fs ++ gs = before ++ filter :: after ∧
        (∃ u, ofValues resolve before k = .ok u) ∧ FilterFault resolve filter e) := by
  refine ⟨?_, ?_, ?_⟩
  · constructor
    · rintro ⟨w, h⟩
      obtain ⟨_, hall, -⟩ := ofValues_ok_iff.mp h
      obtain ⟨cs, ds, hcs, hds, -⟩ := Result.mapM_append_ok_iff.mp hall
      exact ⟨⟨cs, k⟩, _, ofValues_ok_iff.mpr ⟨cs, hcs, rfl⟩, ofValues_ok_iff.mpr ⟨ds, hds, rfl⟩⟩
    · rintro ⟨u, v, hu, hv⟩
      obtain ⟨cs, hcs, -⟩ := ofValues_ok_iff.mp hu
      obtain ⟨ds, hds, -⟩ := ofValues_ok_iff.mp hv
      exact exists_ofValues_iff.mpr ⟨cs ++ ds, Result.mapM_append_ok_iff.mpr ⟨cs, ds, hcs, hds, rfl⟩⟩
  · intro w h
    obtain ⟨_, hall, rfl⟩ := ofValues_ok_iff.mp h
    obtain ⟨cs, ds, hcs, hds, rfl⟩ := Result.mapM_append_ok_iff.mp hall
    exact ⟨⟨cs, k⟩, _, ofValues_ok_iff.mpr ⟨cs, hcs, rfl⟩, ofValues_ok_iff.mpr ⟨ds, hds, rfl⟩,
      joins_append cs ds k⟩
  · intro e
    rw [ofValues_error_iff, Result.mapM_error_iff]
    simp only [exists_ofValues_iff, conditionOf_error_iff]

/-- A range and a text after another parameter, and a filter of which the operator is wrong and the column as well. -/
theorem ofValues_append_range_and_text :
    ∃ range text both : Where, range.Joins text both ∧
      ofValues (.ofColumns [.text "age", .text "name"])
        [FilterSpec.toValue ⟨"age", "between", .list [.int 1, .int 2]⟩,
          FilterSpec.toValue ⟨"name", "contains", .text "50%"⟩] 1 = .ok both ∧
      both.sql = "\"age\" BETWEEN :p2 AND :p3 AND CAST(\"name\" AS TEXT) ILIKE :p4" ∧
      ofValues (.ofColumns [.text "age", .text "name"])
        [FilterSpec.toValue ⟨"age", "eq", .int 1⟩, FilterSpec.toValue ⟨"size", "like", .int 1⟩] 1 =
          refuse (.invalidOperator "like") := by
  have hboth : ofValues (.ofColumns [.text "age", .text "name"])
      ([FilterSpec.toValue ⟨"age", "between", .list [.int 1, .int 2]⟩] ++
        [FilterSpec.toValue ⟨"name", "contains", .text "50%"⟩]) 1 =
      .ok ⟨[.between ⟨none, ⟨"age", by decide⟩⟩ (.int 1) (.int 2),
        .contains ⟨none, ⟨"name", by decide⟩⟩ "%50\\%%"], 1⟩ := by rfl
  obtain ⟨range, text, -, -, hjoins⟩ := (ofValues_append _ _ _ 1).2.1 _ hboth
  refine ⟨range, text, _, hjoins, hboth, by decide, ?_⟩
  apply ((ofValues_append (.ofColumns [.text "age", .text "name"])
    [FilterSpec.toValue ⟨"age", "eq", .int 1⟩] [FilterSpec.toValue ⟨"size", "like", .int 1⟩] 1).2.2 _).mpr
  refine ⟨[FilterSpec.toValue ⟨"age", "eq", .int 1⟩], FilterSpec.toValue ⟨"size", "like", .int 1⟩, [], rfl, ?_, ?_⟩
  · exact ⟨⟨[.compare ⟨none, ⟨"age", by decide⟩⟩ .eq (.int 1)], 1⟩, by rfl⟩
  · exact .operator (f := ⟨"size", "like", .int 1⟩) rfl fun op hop => nomatch Operator.ofName_ok_iff.mpr hop

end Where

end TableSteward
