import TableSteward.Export.Stream
import TableSteward.Proofs.Result

/-!
# Receivers

A receiver takes the chunks of a stream one by one and may give the stream up.  `receive` is all that a download
is to its receiver: the chunks that arrived, also when the stream then failed, and how it ended.
-/
set_option autoImplicit false

/-! ## Records of a text

A reader of comma-separated text finds as many records as there are line ends outside quotes.  What the writer
renders for one row is one record for the reader, whatever stands in its cells.
-/

namespace TableSteward.Csv

/-- The line ends outside quotes, from a place inside quotes or outside of them. -/
def recordsFrom (quoted : Bool) : List Char → Nat
  | [] => 0
  | c :: rest =>
      if c == '"' then recordsFrom (!quoted) rest
      else if c == '\n' && !quoted then recordsFrom quoted rest + 1
      else recordsFrom quoted rest

def records (s : String) : Nat := recordsFrom false s.toList

theorem recordsFrom_quote (quoted : Bool) (rest : List Char) :
    recordsFrom quoted ('"' :: rest) = recordsFrom (!quoted) rest := rfl

/-- Inside quotes only a quote matters. -/
theorem recordsFrom_inside {c : Char} (hc : c ≠ '"') (rest : List Char) :
    recordsFrom true (c :: rest) = recordsFrom true rest := by
  simp [recordsFrom, hc]

theorem recordsFrom_plain {c : Char} (hc : isSpecial c = false) (rest : List Char) :
    recordsFrom false (c :: rest) = recordsFrom false rest := by
  simp only [isSpecial, Bool.or_eq_false_iff, beq_eq_false_iff_ne] at hc
  obtain ⟨⟨⟨-, hquote⟩, hline⟩, -⟩ := hc
  simp [recordsFrom, hquote, hline]

/-- Doubled quotes leave the quotes and enter them again. -/
theorem recordsFrom_doubleQuotes (cs rest : List Char) :
    recordsFrom true (doubleQuotes cs ++ '"' :: rest) = recordsFrom false rest := by
  induction cs with
  | nil => rfl
  | cons c cs ih =>
      by_cases hc : c = '"'
      · subst hc
        exact ih
      · have hdoubled : doubleQuotes (c :: cs) = c :: doubleQuotes cs := by
          simp [doubleQuotes, hc]
        rw [hdoubled, List.cons_append, recordsFrom_inside hc]
        exact ih

theorem recordsFrom_of_plain {cs : List Char} (hcs : ∀ c ∈ cs, isSpecial c = false)
    (rest : List Char) : recordsFrom false (cs ++ rest) = recordsFrom false rest := by
  induction cs with
  | nil => rfl
  | cons c cs ih =>
      rw [List.cons_append, recordsFrom_plain (hcs c (List.mem_cons_self ..))]
      exact ih fun d hd => hcs d (List.mem_cons_of_mem _ hd)

theorem recordsFrom_quoteField (s : String) (rest : List Char) :
    recordsFrom false ((quoteField s).toList ++ rest) = recordsFrom false rest := by
  unfold quoteField
  by_cases hspecial : s.toList.any isSpecial = true
  · rw [if_pos hspecial, String.toList_ofList]
    simp only [List.cons_append, List.append_assoc, List.nil_append, recordsFrom_quote]
    exact recordsFrom_doubleQuotes s.toList rest
  · rw [if_neg hspecial]
    apply recordsFrom_of_plain
    intro c hc
    cases hplain : isSpecial c with
    | false => rfl
    | true => exact absurd (List.any_eq_true.mpr ⟨c, hc, hplain⟩) hspecial

/-- Fields that each end no record still end none with commas between them. -/
theorem recordsFrom_fields {fields : List String}
    (hfields : ∀ s ∈ fields, ∀ rest, recordsFrom false (s.toList ++ rest) = recordsFrom false rest)
    (rest : List Char) :
    recordsFrom false ((",".intercalate fields).toList ++ rest) = recordsFrom false rest := by
  induction fields with
  | nil => rfl
  | cons s fields ih =>
      have hs := hfields s (List.mem_cons_self ..)
      have ih := ih fun t ht => hfields t (List.mem_cons_of_mem _ ht)
      cases fields with
      | nil =>
          rw [String.intercalate_singleton]
          exact hs rest
      | cons t fields =>
          rw [String.intercalate_cons_cons, String.toList_append, String.toList_append,
            List.append_assoc, List.append_assoc, hs]
          exact ih

theorem recordsFrom_line {vs : List Value} {s : String} (h : line vs = .ok s) (rest : List Char) :
    recordsFrom false (s.toList ++ rest) = recordsFrom false rest + 1 := by
  unfold line at h
  obtain ⟨fields, hfields, h⟩ := Result.of_bind_ok h
  cases h
  have hquoted : ∀ t ∈ fields, ∀ rest,
      recordsFrom false (t.toList ++ rest) = recordsFrom false rest := by
    intro t ht rest
    obtain ⟨v, -, hv⟩ := Result.origin_of_mapM_ok hfields t ht
    unfold field at hv
    obtain ⟨text, -, hv⟩ := Result.of_bind_ok hv
    cases hv
    exact recordsFrom_quoteField text rest
  rw [String.toList_append, List.append_assoc, recordsFrom_fields hquoted]
  rfl

theorem recordsFrom_rowLine {columns : List Value} {row : Row} {s : String}
    (h : rowLine columns row = .ok s) (rest : List Char) :
    recordsFrom false (s.toList ++ rest) = recordsFrom false rest + 1 := by
  obtain ⟨cells, -, h⟩ := Result.of_bind_ok h
  exact recordsFrom_line h rest

theorem recordsFrom_join {columns : List Value} {rows : List Row} {lines : List String}
    (h : rows.mapM (rowLine columns) = .ok lines) (rest : List Char) :
    recordsFrom false ((String.join lines).toList ++ rest) =
      recordsFrom false rest + rows.length := by
  have hlines := Result.forall₂_of_mapM_ok h
  clear h
  induction hlines with
  | nil => rfl
  | @cons row s rows lines hline _ ih =>
      rw [String.join_cons, String.toList_append, List.append_assoc, recordsFrom_rowLine hline, ih,
        List.length_cons]
      omega

end TableSteward.Csv

/-! ## Deliveries -/

namespace TableSteward

inductive Ending
  | complete
  | failed (f : Fault)
  | givenUp
  deriving DecidableEq, Repr

structure Delivery where
  chunks : List String
  ending : Ending
  deriving DecidableEq, Repr

namespace Delivery

def text (d : Delivery) : String := String.join d.chunks

/-- The records after the header. -/
def dataLines (d : Delivery) : Nat := Csv.records d.text - 1

def after (chunk : String) (d : Delivery) : Delivery := ⟨chunk :: d.chunks, d.ending⟩

theorem records_after {chunk : String} {n : Nat} (d : Delivery)
    (hchunk : ∀ tail, Csv.recordsFrom false (chunk.toList ++ tail) = Csv.recordsFrom false tail + n) :
    Csv.records (d.after chunk).text = Csv.records d.text + n := by
  unfold Delivery.text Delivery.after Csv.records
  rw [String.join_cons, String.toList_append]
  exact hchunk _

end Delivery

variable {σ : Type} [Server σ]

namespace CursorExport

/-- The next batch: how many rows, and the text of them; or the end of the cursor and of the transaction. -/
def batch (c : Connection) (size : Int) (columns : List Value) : Exchange σ (Option (Nat × String)) :=
  guarded c do
    let rows ← Exchange.execute c (.fetch size)
    match rows with
    | [] => do
        discard (Exchange.execute c .closeCursor)
        Exchange.commit c
        return none
    | rows => do
        let lines ← Exchange.lift (rows.mapM (Csv.rowLine columns))
        return some (rows.length, String.join lines)

theorem readBatch_eq (e : CursorExport σ) (c : Connection) (written : Nat) :
    e.readBatch c written = (do
      match ← batch c e.batchSize e.columns with
      | some (count, chunk) => return (some chunk, .cursor e (.reading c (written + count)))
      | none => do
          Exchange.close c
          e.onComplete written
          return (none, .finished)) := rfl

end CursorExport

namespace TextStream

/-- What reaches a receiver who gives the stream up after so many chunks. -/
def receive : Nat → TextStream σ → Exchange σ Delivery
  | 0, s => do
      s.close
      return ⟨[], .givenUp⟩
  | patience + 1, s => do
      match ← Exchange.attempt s.next with
      | .error f => return ⟨[], .failed f⟩
      | .ok (none, _) => return ⟨[], .complete⟩
      | .ok (some chunk, rest) => do
          let d ← receive patience rest
          return d.after chunk

end TextStream

end TableSteward
