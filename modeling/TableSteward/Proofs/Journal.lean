import TableSteward.Proofs.Exchange
import TableSteward.Database.Statement

/-!
# Journals

A journal is a server that answers like another one and writes down every call with its answer.  An exchange
that runs on a journal leaves a full record of what was asked of the databases and of what they answered, in
the order of time.

An *account* says what must have been answered before a statement may be executed that tells something of
given tables.
-/
set_option autoImplicit false

namespace TableSteward

/-- A call with its answer; no answer means that the call failed. -/
structure Entry where
  call : Call
  answer : Option (List Row)
  deriving Repr

structure Journal (σ : Type) where
  server : σ
  /-- What has been asked, the earliest first. -/
  entries : List Entry := []

instance {σ : Type} [Server σ] : Server (Journal σ) where
  answer j c :=
    let (answer, server) := Server.answer j.server c
    (answer, ⟨server, j.entries ++ [⟨c, answer⟩]⟩)

def Link.journaled {σ : Type} (l : Link σ) : Link (Journal σ) :=
  ⟨⟨l.server, []⟩, l.connections, l.trace, l.pools⟩

theorem Journal.answer_fst {σ : Type} [Server σ] (j : Journal σ) (c : Call) :
    (Server.answer j c).1 = (Server.answer j.server c).1 := rfl

theorem Journal.answer_entries {σ : Type} [Server σ] (j : Journal σ) (c : Call) :
    (Server.answer j c).2.entries = j.entries ++ [⟨c, (Server.answer j c).1⟩] := rfl

/-- Whether a statement reads the rows of tables.  A text from outside might. -/
def Statement.isData : Statement → Bool
  | .count _ | .page _ _ | .declareCursor _ | .chart _ | .metric _ | .given _ => true
  | _ => false

/-- Whether a statement tells anything of given tables, beyond whether they exist. -/
def Statement.isTelling : Statement → Bool
  | .columns _ | .primaryKey _ => true
  | s => s.isData

theorem Statement.isTelling_of_isData {s : Statement} (h : s.isData = true) : s.isTelling = true := by
  cases s with
  | columns _ | primaryKey _ => rfl
  | _ => exact h

def Statement.isProbe : Statement → Bool
  | .tableExists _ | .listTables => true
  | _ => false

/-- What has to be in a journal before a statement is executed on a connection. -/
abbrev Account := List Entry → Connection → Statement → Prop

/-- Every telling statement of the journal is accounted for by the entries before it. -/
def Accounted (A : Account) (js : List Entry) : Prop :=
  ∀ earlier e later c s, js = earlier ++ e :: later → e.call = .execute c s → s.isTelling = true →
    A earlier c s

theorem accounted_nil (A : Account) : Accounted A [] := by
  intro earlier e later c s h
  simp at h

/-- A place in a longer journal is its last one, or it is a place in the journal before. -/
theorem of_concat_split {js earlier later : List Entry} {e d : Entry}
    (h : js ++ [e] = earlier ++ d :: later) :
    js = earlier ∧ e = d ∨ ∃ front, js = earlier ++ d :: front := by
  rcases List.eq_nil_or_concat later with rfl | ⟨front, last, rfl⟩
  · obtain ⟨rfl, hlast⟩ := List.append_inj' h rfl
    exact .inl ⟨rfl, (List.cons.inj hlast).1⟩
  · have hfront : js ++ [e] = (earlier ++ d :: front) ++ [last] := by simpa using h
    exact .inr ⟨front, (List.append_inj' hfront rfl).1⟩

theorem Accounted.concat {A : Account} {js : List Entry} (hjs : Accounted A js) (e : Entry)
    (he : ∀ c s, e.call = .execute c s → s.isTelling = true → A js c s) : Accounted A (js ++ [e]) := by
  intro earlier d later c s h hd hs
  rcases of_concat_split h with ⟨rfl, rfl⟩ | ⟨front, hfront⟩
  · exact he c s hd hs
  · exact hjs earlier d front c s hfront hd hs

end TableSteward
