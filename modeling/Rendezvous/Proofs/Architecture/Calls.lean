import Mathlib.Data.List.Induction
import Rendezvous.Proofs.Architecture.Links
import Rendezvous.Proofs.Table

/-!
# Histories of calls on a side table

A side table is used through calls that attach an end, get hold of a record, or write a cardinality
or a port.  Getting hold of a record creates it when there is none, and attaching begins in this way
with the record of the connector; yet an attachment that is refused changes nothing, since a list
that holds the end has a record already (`attachStepwise_eq`).  An end that is attached again
elsewhere stays in the old list and names the new connector, so a listed end names the connector of
its last attachment that was not refused (`connectorOf?_run_eq_some_iff`).
-/

namespace Rendezvous.Annotations

/-! ## Attaching, record by record -/

/-- Attaching in the order in which the records are accessed, with the answer.  The record of the
connector is there before its list is searched, and the two records written may be the same one. -/
def attachStepwise (a : Annotations) (connector e : Path) : Bool × Annotations :=
  let opened := a.touch connector
  if (opened.ends connector).contains e then (false, opened)
  else
    let listed := opened.modify connector fun d => { d with ends := d.ends ++ [e] }
    (true, listed.modify e fun d => { d with connector := some connector })

section
variable {a : Annotations} {p : Path}

/-- A record that is there is not created again. -/
theorem touch_eq_self (h : (a.get? p).isSome) : a.touch p = a := by
  obtain ⟨d, hd⟩ := Option.isSome_iff_exists.1 h
  have htable : a.table.get? p = some d := hd
  rw [touch, modify, Table.update, htable]
  exact congrArg mk (Table.insert_eq_self htable)

/-- Creating a record before changing it makes no difference. -/
theorem modify_touch (a : Annotations) (p : Path) (f : Derived → Derived) :
    (a.touch p).modify p f = a.modify p f := by
  rw [touch, modify, modify]
  apply congrArg mk
  rw [Table.update, Table.get?_update, if_pos rfl, Table.update, Table.insert_insert]
  rfl

/-- A node that lists an end has a record. -/
theorem isSome_of_mem_ends {e : Path} (h : e ∈ a.ends p) : (a.get? p).isSome := by
  rw [ends, get] at h
  cases hd : a.get? p with
  | some d => rfl
  | none =>
    rw [hd] at h
    exact absurd h List.not_mem_nil

end

/-- **Attaching record by record comes to the same.**  In particular the record of the connector that
is created first is never left behind by a refusal. -/
theorem attachStepwise_eq (a : Annotations) (connector e : Path) :
    a.attachStepwise connector e = (a.canAttach connector e, a.attach connector e) := by
  have hends : (a.touch connector).ends connector = a.ends connector :=
    congrFun (ends_eq_of_links (links_touch a connector)) connector
  unfold attachStepwise attach canAttach
  dsimp only
  rw [hends, modify_touch]
  by_cases h : e ∈ a.ends connector
  · have hself : a.touch connector = a := touch_eq_self (isSome_of_mem_ends h)
    simp [h, hself]
  · simp [h]

/-! ## Calls -/

/-- A call on a side table. -/
inductive Call where
  | attach (connector e : Path)
  | entry (p : Path)
  | setCardinality (p : Path) (value : Option UInt32)
  | setPort (p : Path) (value : Option Path)
  deriving DecidableEq, Repr

/-- The table after a call. -/
def step (a : Annotations) : Call → Annotations
  | .attach connector e => a.attach connector e
  | .entry p => a.touch p
  | .setCardinality p value => a.setCardinality p value
  | .setPort p value => a.setPort p value

/-- The table after some calls on one without records. -/
def run (calls : List Call) : Annotations :=
  calls.foldl step empty

theorem run_concat (calls : List Call) (call : Call) :
    run (calls ++ [call]) = (run calls).step call :=
  List.foldl_concat ..

/-- The connector that a call attaches an end to, if it does and is not refused. -/
def attached? (a : Annotations) (e : Path) : Call → Option Path
  | .attach connector x => if a.canAttach connector x = true ∧ x = e then some connector else none
  | _ => none

/-- A call changes the connector of an end only by attaching it. -/
theorem connectorOf?_step (a : Annotations) (call : Call) (e : Path) :
    (a.step call).connectorOf? e = (a.attached? e call).or (a.connectorOf? e) := by
  cases call with
  | attach connector x =>
    have hcan : a.canAttach connector x = true ↔ x ∉ a.ends connector := by simp [canAttach]
    rw [step, connectorOf?_attach, attached?]
    simp only [hcan]
    split <;> rfl
  | entry p => exact congrFun (connectorOf?_eq_of_links (links_touch a p)) e
  | setCardinality p value =>
    exact congrFun (connectorOf?_eq_of_links (links_setCardinality a p value)) e
  | setPort p value => exact congrFun (connectorOf?_eq_of_links (links_setPort a p value)) e

theorem linked_step {a : Annotations} (h : a.Linked) (call : Call) : (a.step call).Linked := by
  cases call with
  | attach connector e => exact linked_attach h connector e
  | entry p => exact linked_of_links (links_touch a p) h
  | setCardinality p value => exact linked_of_links (links_setCardinality a p value) h
  | setPort p value => exact linked_of_links (links_setPort a p value) h

/-- No history takes the two directions of an attachment apart. -/
theorem linked_run (calls : List Call) : (run calls).Linked :=
  List.foldlRecOn calls step linked_empty fun _ h call _ => linked_step h call

/-! ## The last attachment -/

/-- Of the calls that attached `e` and were not refused, the last attached it to `c`. -/
def LastAttached (calls : List Call) (e c : Path) : Prop :=
  ∃ before call after, calls = before ++ call :: after ∧
    (run before).attached? e call = some c ∧
    ∀ middle next rest, after = middle ++ next :: rest →
      (run (before ++ call :: middle)).attached? e next = none

theorem not_lastAttached_nil (e c : Path) : ¬ LastAttached [] e c := by
  rintro ⟨before, call, after, h, -⟩
  simp at h

/-- The last attachment is made by the last call, or by none but an earlier one. -/
theorem lastAttached_concat {calls : List Call} {call : Call} {e c : Path} :
    LastAttached (calls ++ [call]) e c ↔
      (run calls).attached? e call = some c ∨
        (run calls).attached? e call = none ∧ LastAttached calls e c := by
  constructor
  · rintro ⟨before, made, after, hcalls, hmade, hlater⟩
    obtain rfl | ⟨after, last, rfl⟩ := List.eq_nil_or_concat' after
    · obtain ⟨rfl, rfl⟩ := List.append_singleton_inj.1 hcalls
      exact Or.inl hmade
    · -- a call came after it, so the last one attached nothing
      rw [← List.cons_append, ← List.append_assoc] at hcalls
      obtain ⟨rfl, rfl⟩ := List.append_singleton_inj.1 hcalls
      refine Or.inr ⟨hlater after call [] rfl, before, made, after, rfl, hmade, ?_⟩
      intro middle next rest hafter
      apply hlater middle next (rest ++ [call])
      rw [hafter, List.append_assoc, List.cons_append]
  · rintro (hlast | ⟨hlast, before, made, after, rfl, hmade, hlater⟩)
    · exact ⟨calls, call, [], rfl, hlast, fun middle next rest h => by simp at h⟩
    · refine ⟨before, made, after ++ [call], by simp, hmade, ?_⟩
      intro middle next rest hafter
      obtain rfl | ⟨rest, last, rfl⟩ := List.eq_nil_or_concat' rest
      · obtain ⟨rfl, rfl⟩ := List.append_singleton_inj.1 hafter
        exact hlast
      · rw [← List.cons_append, ← List.append_assoc] at hafter
        exact hlater middle next rest (List.append_singleton_inj.1 hafter).1

/-- **An end names the connector of its last attachment.** -/
theorem connectorOf?_run_eq_some_iff {calls : List Call} {e c : Path} :
    (run calls).connectorOf? e = some c ↔ LastAttached calls e c := by
  induction calls using List.reverseRecOn with
  | nil => exact iff_of_false nofun (not_lastAttached_nil e c)
  | append_singleton calls call ih =>
    rw [run_concat, connectorOf?_step, lastAttached_concat, Option.or_eq_some_iff, ih]

/-- **Lists of ends and back-links agree after every history of calls.**  No list repeats an end, and
an end is in the list of the connector that it names.  A listed end names the connector of its last
attachment that was not refused.  A refused attachment, which began by getting hold of the record of
the connector, leaves the table as it was. -/
theorem history_keeps_links (calls : List Call) :
    let a := run calls
    (∀ c, (a.ends c).Nodup) ∧
      (∀ e c, a.connectorOf? e = some c → e ∈ a.ends c) ∧
      (∀ e c, e ∈ a.ends c → ∃ d, a.connectorOf? e = some d ∧ LastAttached calls e d) ∧
      ∀ c e, a.attachStepwise c e = (a.canAttach c e, a.attach c e) ∧
        ((a.attachStepwise c e).1 = false → (a.attachStepwise c e).2 = a) := by
  intro a
  have hlinked : a.Linked := linked_run calls
  refine ⟨hlinked.nodup, fun e c => hlinked.mem_of_connectorOf?, ?_, ?_⟩
  · intro e c he
    obtain ⟨d, hd⟩ := Option.isSome_iff_exists.1 (hlinked.isSome_of_mem he)
    exact ⟨d, hd, connectorOf?_run_eq_some_iff.1 hd⟩
  · intro c e
    rw [attachStepwise_eq]
    refine ⟨rfl, fun hrefused => ?_⟩
    rw [attach, if_neg (by simpa using hrefused)]

/-- An end that moves to another connector stays in the old list, where it cannot be attached. -/
example :
    let a := run [.attach "/c" "/e", .attach "/c" "/c", .entry "/x", .attach "/d" "/e",
      .setPort "/e" (some "/p"), .attach "/c" "/e"]
    a.ends "/c" = ["/e", "/c"] ∧ a.ends "/d" = ["/e"] ∧ a.connectorOf? "/e" = some "/d" ∧
      a.connectorOf? "/c" = some "/c" := by
  decide

end Rendezvous.Annotations
