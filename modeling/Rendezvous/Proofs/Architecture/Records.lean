import Rendezvous.Architecture.Basic
import Rendezvous.Proofs.Accumulation

/-!
# What a write does to a record

The side table is read through three views: the cardinality of a node (`cardinality?`), its links
(the ends it lists and the connector it belongs to) and the recorded texts of its expressions.
Every write changes one view and leaves the others as functions untouched, so that an invariant
about links never has to look at a write of cardinalities.
-/

namespace Rendezvous.Annotations

/-! ## Views -/

/-- The ends that every node lists and the connector that it belongs to. -/
def links (a : Annotations) : Path → List Path × Option Path :=
  fun p => (a.ends p, a.connectorOf? p)

/-- The recorded degree and multiplicity of every node. -/
def texts (a : Annotations) : Path → Option String × Option String :=
  fun p => ((a.get p).degree, (a.get p).multiplicity)

theorem ends_eq_of_links {a b : Annotations} (h : a.links = b.links) : a.ends = b.ends :=
  funext fun p => congrArg Prod.fst (congrFun h p)

theorem connectorOf?_eq_of_links {a b : Annotations} (h : a.links = b.links) :
    a.connectorOf? = b.connectorOf? :=
  funext fun p => congrArg Prod.snd (congrFun h p)

/-! ## Changing one record -/

/-- A change of a record that keeps some of its data keeps that data at every node. -/
theorem view_modify {α : Type} (view : Derived → α) {f : Derived → Derived}
    (hf : ∀ d, view (f d) = view d) (a : Annotations) (p q : Path) :
    view ((a.modify p f).get q) = view (a.get q) := by
  rw [get_modify]
  split
  · next h => rw [hf, h]
  · rfl

theorem links_modify {f : Derived → Derived} (hends : ∀ d, (f d).ends = d.ends)
    (hconnector : ∀ d, (f d).connector = d.connector) (a : Annotations) (p : Path) :
    (a.modify p f).links = a.links := by
  funext q
  exact view_modify (fun d => (d.ends, d.connector))
    (fun d => by rw [hends, hconnector]) a p q

theorem cardinality?_modify {f : Derived → Derived}
    (hf : ∀ d, (f d).cardinality = d.cardinality) (a : Annotations) (p : Path) :
    (a.modify p f).cardinality? = a.cardinality? :=
  funext fun q => view_modify Derived.cardinality hf a p q

theorem texts_modify {f : Derived → Derived} (hdegree : ∀ d, (f d).degree = d.degree)
    (hmultiplicity : ∀ d, (f d).multiplicity = d.multiplicity) (a : Annotations) (p : Path) :
    (a.modify p f).texts = a.texts := by
  funext q
  exact view_modify (fun d => (d.degree, d.multiplicity))
    (fun d => by rw [hdegree, hmultiplicity]) a p q

/-! ## Cardinalities -/

@[simp] theorem links_setCardinality (a : Annotations) (p : Path) (value : Option UInt32) :
    (a.setCardinality p value).links = a.links :=
  links_modify (by intro _; rfl) (by intro _; rfl) a p

@[simp] theorem texts_setCardinality (a : Annotations) (p : Path) (value : Option UInt32) :
    (a.setCardinality p value).texts = a.texts :=
  texts_modify (by intro _; rfl) (by intro _; rfl) a p

theorem cardinality?_setCardinality (a : Annotations) (p q : Path) (value : Option UInt32) :
    (a.setCardinality p value).cardinality? q = if p = q then value else a.cardinality? q := by
  rw [cardinality?, setCardinality, get_modify]
  split <;> rfl

theorem cardinality?_setAll {value : Option UInt32} {ports : List Path} {a : Annotations}
    (q : Path) :
    (ports.foldl (fun t p => t.setCardinality p value) a).cardinality? q =
      if q ∈ ports then value else a.cardinality? q := by
  induction ports generalizing a with
  | nil => simp
  | cons p ports ih =>
    rw [List.foldl_cons, ih, cardinality?_setCardinality]
    by_cases hq : q ∈ ports
    · simp [hq]
    · simp [hq, eq_comm]

/-! ## Attaching -/

/-- Attaching lists the end and links it back, both or neither. -/
theorem get_attach (a : Annotations) (connector e p : Path) :
    (a.attach connector e).get p =
      if e ∈ a.ends connector then a.get p
      else { a.get p with
        ends := if connector = p then a.ends p ++ [e] else a.ends p
        connector := if e = p then some connector else a.connectorOf? p } := by
  by_cases he : e ∈ a.ends connector
  · simp [attach, canAttach, he]
  · have hcan : a.canAttach connector e = true := by simpa [canAttach] using he
    rw [attach, if_pos hcan, if_neg he, get_modify, get_modify, get_modify]
    -- four cases: whether `p` is the connector and whether it is the end
    by_cases hc : connector = p <;> by_cases hp : e = p
    · subst hc
      subst hp
      simp [ends]
    · subst hc
      simp [hp, ends, connectorOf?]
    · subst hp
      simp [hc, ends]
    · simp [hc, hp, ends, connectorOf?]

theorem connectorOf?_attach (a : Annotations) (connector e p : Path) :
    (a.attach connector e).connectorOf? p =
      if e ∉ a.ends connector ∧ e = p then some connector else a.connectorOf? p := by
  rw [connectorOf?, get_attach]
  by_cases he : e ∈ a.ends connector
  · simp [he, connectorOf?]
  · simp [he]

theorem mem_ends_attach {a : Annotations} {connector e p x : Path} :
    x ∈ (a.attach connector e).ends p ↔ x ∈ a.ends p ∨ (connector = p ∧ x = e) := by
  rw [ends_attach]
  split
  · next h => simp [h.1]
  · next h =>
    constructor
    · exact Or.inl
    · rintro (hx | ⟨rfl, rfl⟩)
      · exact hx
      · exact Decidable.byContradiction fun hx => h ⟨rfl, hx⟩

@[simp] theorem cardinality?_attach (a : Annotations) (connector e : Path) :
    (a.attach connector e).cardinality? = a.cardinality? := by
  funext p
  rw [cardinality?, get_attach]
  split <;> rfl

@[simp] theorem texts_attach (a : Annotations) (connector e : Path) :
    (a.attach connector e).texts = a.texts := by
  funext p
  rw [texts, get_attach]
  split <;> rfl

/-! ## Ports -/

@[simp] theorem links_setPort (a : Annotations) (p : Path) (value : Option Path) :
    (a.setPort p value).links = a.links :=
  links_modify (by intro _; rfl) (by intro _; rfl) a p

/-! ## Making room for a record -/

@[simp] theorem links_touch (a : Annotations) (p : Path) : (a.touch p).links = a.links :=
  links_modify (by intro _; rfl) (by intro _; rfl) a p

@[simp] theorem cardinality?_touch (a : Annotations) (p : Path) :
    (a.touch p).cardinality? = a.cardinality? :=
  cardinality?_modify (by intro _; rfl) a p

@[simp] theorem texts_touch (a : Annotations) (p : Path) : (a.touch p).texts = a.texts :=
  texts_modify (by intro _; rfl) (by intro _; rfl) a p

end Rendezvous.Annotations

namespace Rendezvous.Architecture

/-! ## Component types and ends -/

@[simp] theorem links_annotateType (node : Path) (value : Option UInt32) (letter : Option Char)
    (a : Annotations) : (annotateType node value letter a).links = a.links :=
  Annotations.links_modify (by intro _; rfl) (by intro _; rfl) a node

@[simp] theorem texts_annotateType (node : Path) (value : Option UInt32) (letter : Option Char)
    (a : Annotations) : (annotateType node value letter a).texts = a.texts :=
  Annotations.texts_modify (by intro _; rfl) (by intro _; rfl) a node

theorem cardinality?_annotateType (node p : Path) (value : Option UInt32) (letter : Option Char)
    (a : Annotations) :
    (annotateType node value letter a).cardinality? p =
      if node = p then value else a.cardinality? p := by
  rw [annotateType, Annotations.cardinality?, Annotations.get_modify]
  split <;> rfl

@[simp] theorem links_annotateEnd (s : Store) (e : Path) (port : Option Path) (a : Annotations) :
    (annotateEnd s e port a).links = a.links :=
  Annotations.links_modify (by intro _; rfl) (by intro _; rfl) a e

@[simp] theorem cardinality?_annotateEnd (s : Store) (e : Path) (port : Option Path)
    (a : Annotations) : (annotateEnd s e port a).cardinality? = a.cardinality? := by
  unfold annotateEnd
  exact Annotations.cardinality?_modify (by intro _; rfl) a e

theorem texts_annotateEnd (s : Store) (e p : Path) (port : Option Path) (a : Annotations) :
    (annotateEnd s e port a).texts p =
      if e = p then
        (some (s.attributeText e Attribute.degree), some (s.attributeText e Attribute.multiplicity))
      else a.texts p := by
  rw [annotateEnd, Annotations.texts, Annotations.get_modify]
  split <;> rfl

end Rendezvous.Architecture
