import Mathlib.Data.List.Induction
import Rendezvous.Proofs.Architecture.Build
import Rendezvous.Proofs.Config.Cardinality

/-!
# Letters and cardinalities of component types

The letters that an architecture declares are those of its component types, declared in load order
(`parameters_build`), and a component type shares the cardinality that its text denotes with its
ports (`cardinality?_build_of_type`): a node belongs to one component type at most, so no later type
overwrites it.
-/

namespace Rendezvous

open Arithmetic

namespace Architecture

/-! ## Letters -/

/-- Declares the letter of a component type, if its cardinality is one. -/
def declareLetter (s : Store) (ps : Parameters) (node : Path) : Parameters :=
  (letterOf? (Cardinality.read (s.attributeText node Attribute.cardinality))).elim ps ps.insert

/-- The declared letters are those of the component types, declared in load order. -/
theorem parameters_build (s : Store) (config : Config) :
    (build s config).parameters =
      (s.instancesWhere (· == .componentType)).foldl (declareLetter s) .empty := by
  refine typeView_build Architecture.parameters (fun _ _ => rfl) ?_ ?_
  · intro a p
    unfold addConnector
    split <;> rfl
  · intro a p
    unfold addConnection
    split <;> rfl

theorem mem_declareLetter {s : Store} {ps : Parameters} {node : Path} {c : Char} :
    c ∈ (declareLetter s ps node).letters ↔ c ∈ ps.letters ∨
      Cardinality.read (s.attributeText node Attribute.cardinality) = .parameter c := by
  unfold declareLetter
  cases h : Cardinality.read (s.attributeText node Attribute.cardinality) with
  | parameter letter =>
    have hlower : letter.isLower = true := (Cardinality.read_eq_parameter_iff.1 h).2
    simp [letterOf?, Parameters.mem_insert, hlower, eq_comm]
  | literal count => simp [letterOf?]
  | invalid raw => simp [letterOf?]

/-- A letter is declared exactly when it is the cardinality of some component type. -/
theorem mem_foldl_declareLetter {s : Store} {nodes : List Path} {ps : Parameters} {c : Char} :
    c ∈ (nodes.foldl (declareLetter s) ps).letters ↔ c ∈ ps.letters ∨
      ∃ p ∈ nodes, Cardinality.read (s.attributeText p Attribute.cardinality) = .parameter c := by
  have hstep : ∀ (qs : Parameters) (p : Path), c ∈ (declareLetter s qs p).letters ↔ c ∈ qs.letters ∨
      Cardinality.read (s.attributeText p Attribute.cardinality) = .parameter c :=
    fun _ _ => mem_declareLetter
  rw [foldl_iff_or_exists (P := (c ∈ Parameters.letters ·)) hstep]

theorem mem_parameters_build {s : Store} {config : Config} {c : Char} :
    c ∈ (build s config).parameters.letters ↔ ∃ p, s.instanceType? p = some .componentType ∧
      Cardinality.read (s.attributeText p Attribute.cardinality) = .parameter c := by
  rw [parameters_build, mem_foldl_declareLetter]
  simp [Store.mem_instancesWhere, Parameters.empty]

/-! ## Component types and their cardinalities -/

/-- A component type and its ports share one cardinality. -/
def HasCardinalityOf (s : Store) (t p : Path) : Prop :=
  p = t ∨ p ∈ enforceablePorts s t

instance (s : Store) (t p : Path) : Decidable (HasCardinalityOf s t p) :=
  inferInstanceAs (Decidable (_ ∨ _))

/-- The value of a component type's cardinality text. -/
def configuredCardinality (s : Store) (config : Config) (t : Path) : Option UInt32 :=
  (Cardinality.read (s.attributeText t Attribute.cardinality)).resolve config

/-- A component type writes its cardinality to itself and to its ports. -/
def writeCardinality (s : Store) (config : Config) (f : Path → Option UInt32) (t : Path) :
    Path → Option UInt32 :=
  fun p => if HasCardinalityOf s t p then configuredCardinality s config t else f p

theorem cardinality?_build (s : Store) (config : Config) :
    (build s config).cardinality? =
      (s.instancesWhere (· == .componentType)).foldl (writeCardinality s config) fun _ => none :=
  typeView_build cardinality? (fun a t => funext (cardinality?_addComponentType s config a t))
    (cardinality?_addConnector s) (cardinality?_addConnection s)

/-- A node belongs to one component type only: its parent, or itself. -/
theorem type_unique {s : Store} {t u p : Path} (ht : s.instanceType? t = some .componentType)
    (hu : s.instanceType? u = some .componentType) (hp : HasCardinalityOf s t p)
    (hp' : HasCardinalityOf s u p) : t = u := by
  have hport : ∀ {t u : Path}, s.instanceType? t = some .componentType →
      t ∉ enforceablePorts s u := by
    intro t u ht hmem
    obtain ⟨-, hmeta⟩ := Store.instanceType?_eq_some_iff.1 ht
    have hisA := (List.mem_filter.1 hmem).2
    rw [Store.isA, hmeta] at hisA
    cases hisA
  rcases hp with rfl | hp
  · rcases hp' with rfl | hp'
    · rfl
    · exact absurd hp' (hport ht)
  · rcases hp' with rfl | hp'
    · exact absurd hp (hport hu)
    · have h := Store.parent?_of_mem_children (List.mem_filter.1 hp).1
      rw [Store.parent?_of_mem_children (List.mem_filter.1 hp').1] at h
      exact (Option.some.inj h).symm

/-- After building, a component type and its ports have the cardinality that its text denotes. -/
theorem cardinality?_build_of_type {s : Store} {config : Config} {t p : Path}
    (ht : s.instanceType? t = some .componentType) (hp : HasCardinalityOf s t p) :
    (build s config).cardinality? p = configuredCardinality s config t := by
  have hfold : ∀ types : List Path, (∀ u ∈ types, s.instanceType? u = some .componentType) →
      t ∈ types → types.foldl (writeCardinality s config) (fun _ => none) p =
        configuredCardinality s config t := by
    intro types htypes hmem
    induction types using List.reverseRecOn with
    | nil => exact absurd hmem List.not_mem_nil
    | append_singleton types u ih =>
      rw [List.foldl_concat, writeCardinality]
      split
      · next hu =>
        rw [type_unique ht (htypes u (by simp)) hp hu]
      · next hu =>
        refine ih (fun v hv => htypes v (by simp [hv])) ?_
        rcases List.mem_append.1 hmem with h | h
        · exact h
        · rw [List.mem_singleton.1 h] at hp
          exact absurd hp hu
  rw [cardinality?_build]
  refine hfold _ (fun u hu => ?_) ?_
  · obtain ⟨m, hm, hw⟩ := Store.mem_instancesWhere.1 hu
    rw [hm, beq_iff_eq.1 hw]
  · exact Store.mem_instancesWhere.2 ⟨_, ht, rfl⟩

end Architecture

end Rendezvous
