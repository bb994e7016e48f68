import Texel.Proofs.Glsl.Blocks
import Texel.Proofs.Program.Generation

/-!
# Texel — the words of a program

Names that are made for a program can be told from the words of the language: they have an
underscore in them, and no word of the language has. So the expressions and lines that the blueprint
of a program consists of can be written down and read again.

* **`isName_outputName`** and others — the names of a program.
* **`plain_argumentOf`**, **`plain_returned`** — the expressions.
* **`plain_scope`** — the lines.
-/

namespace Texel.Program

open Glsl Builtin
open Shader.Parse (IsFree)

/-! ## Names -/

/-- No word of the language and no type has an underscore. -/
theorem isFree_of_underscore {w : String} (h : '_' ∈ w.toList) : IsFree w := by
  have hreserved : ∀ k ∈ Shader.Parse.reservedWords, '_' ∉ k.toList := by decide +kernel
  have hnames : ∀ entry ∈ Shader.ValueType.names, '_' ∉ entry.1.toList := by decide +kernel
  refine ⟨fun hmem => hreserved w hmem h, ?_⟩
  rw [Shader.ValueType.ofName?, List.lookup_eq_none_iff]
  intro entry hentry
  simp only [bne_iff_ne]
  rintro rfl
  exact hnames entry hentry h

theorem isName_of_spelled {w : String} (h : Spelled w) (hunderscore : '_' ∈ w.toList) : IsName w :=
  ⟨h.isIdentifier, isFree_of_underscore hunderscore⟩

theorem underscore_mem_outputName (n k : Nat) : '_' ∈ (outputName n k).toList := by
  simp [toList_outputName]

theorem underscore_mem_uniformName (n : Nat) (q : String) : '_' ∈ (uniformName n q).toList := by
  simp [toList_uniformName]

theorem underscore_mem_flagName (name : String) : '_' ∈ (flagName name).toList := by
  simp [toList_flagName]

theorem isName_outputName (n k : Nat) : IsName (outputName n k) :=
  isName_of_spelled (Label.spelled (.output n k)) (underscore_mem_outputName n k)

theorem isName_uniformName (n : Nat) (q : String) : IsName (uniformName n q) :=
  isName_of_spelled (Label.spelled (.uniform n q)) (underscore_mem_uniformName n q)

theorem isName_flagName (n : Nat) (q : String) : IsName (flagName (uniformName n q)) :=
  isName_of_spelled (Label.spelled (.flag n q)) (underscore_mem_flagName _)

theorem isName_subtreeName (n : Nat) : IsName (subtreeName n) :=
  isName_of_spelled (Label.spelled (.subtree n)) (by simp [toList_subtreeName])

/-- The first line of a subtree function is that of a function of the coordinate. -/
theorem subtreeSignature_eq (id : Nat) :
    subtreeSignature id = headText "vec4" (subtreeName id) "vec2" coordName := by
  rw [← String.toList_inj, toList_headText, subtreeSignature]
  simp

theorem subtreeSignature_inj {m n : Nat} : subtreeSignature m = subtreeSignature n ↔ m = n := by
  refine ⟨fun h => subtreeName_inj.mp ?_, fun h => h ▸ rfl⟩
  rw [← String.toList_inj] at h ⊢
  simpa [subtreeSignature] using h

/-! ## Expressions -/

variable {g : Graph Builtin} {order : List Nat} {id : Nat} {n : Node Builtin}

theorem isName_calleeName (n : Node Builtin) : IsName (calleeName n) := by
  by_cases hmulti : n.behavior = heightGradient
  · rw [calleeName_multi hmulti]
    have hgradient : isIdentifier gradient.toList = true := by decide
    refine ⟨isIdentifier_specialisedName hgradient n.id, isFree_of_underscore ?_⟩
    rw [toList_specialisedName]
    simp
  · have hall : ∀ b ∈ all, IsName b.operator.function := by decide +kernel
    rw [calleeName_single hmulti]
    exact hall n.behavior n.behavior.mem_all

theorem plain_fetched (g : Graph Builtin) (kind : Kind) (id index : Nat) :
    (fetched g kind id index).Plain :=
  isName_outputName id index

theorem plain_position (n : Node Builtin) : (position g n).Plain := by
  unfold position
  cases feeder? g n coordInput with
  | none => trivial
  | some c => exact plain_fetched _ _ _ _

theorem plain_argumentOf (binding : Binding) {kind : Kind} (hkind : kind.isNumeric = true) :
    (argumentOf g n binding kind).Plain := by
  unfold argumentOf
  split
  · exact plain_fetched _ _ _ _
  · split_ifs
    · exact ⟨isName_uniformName _ _, isName_flagName _ _, plain_position n⟩
    · exact isName_uniformName _ _
  · split_ifs
    · trivial
    · exact hkind

theorem plain_argumentsOf (n : Node Builtin) : ∀ e ∈ argumentsOf g n, e.Plain := by
  rw [argumentsOf, List.forall_mem_append, List.forall_mem_singleton]
  refine ⟨fun e he => ?_, isName_outputName _ _⟩
  obtain ⟨q, hq, rfl⟩ := List.mem_map.mp he
  exact plain_argumentOf _ (n.behavior.inputParameters_spec q hq).2

theorem plain_returned (n : Node Builtin) : (returned g n).Plain := by
  unfold returned
  cases firstFeeder? g n with
  | none => rfl
  | some c => exact plain_fetched _ _ _ _

/-! ## Lines -/

/-- The lines of a scope: declarations of outputs, calls of nodes, and the last one. -/
theorem mem_scope {ids : List Nat} {last line : Line} (h : line ∈ scope g ids last) :
    (∃ id ∈ ids, ∃ n, g.node? id = some n ∧ ∃ s ∈ n.outputs,
      line = .declare s.kind.held (outputName id s.index)) ∨
    (∃ id ∈ ids, ∃ n, g.node? id = some n ∧ line = .call (calleeName n) (argumentsOf g n)) ∨
    line = last := by
  rw [scope, List.mem_append, List.mem_append, List.mem_flatMap, List.mem_flatMap,
    List.mem_singleton] at h
  rcases h with (⟨id, hid, h⟩ | ⟨id, hid, h⟩) | h
  · rw [declarations] at h
    cases hn : g.node? id with
    | none => simp [hn] at h
    | some n =>
      rw [hn] at h
      obtain ⟨s, hs, rfl⟩ := List.mem_map.mp h
      exact Or.inl ⟨id, hid, n, hn, s, hs, rfl⟩
  · rw [calls] at h
    cases hn : g.node? id with
    | none => simp [hn] at h
    | some n =>
      rw [hn] at h
      exact Or.inr (Or.inl ⟨id, hid, n, hn, List.mem_singleton.mp h⟩)
  · exact Or.inr (Or.inr h)

theorem isNumeric_held {kind : Kind} (h : kind ≠ .none) : kind.held.isNumeric = true := by
  cases kind with
  | none => exact absurd rfl h
  | scalar => rfl
  | vec2 => rfl
  | vec3 => rfl
  | vec4 => rfl
  | image => rfl

/-- **Scopes** are made of lines that can be read. -/
theorem Planned.plain_scope (h : Planned g order) {ids : List Nat} {last : Line}
    (hlast : last.Plain) :
    ∀ line ∈ scope g ids last, line.Plain := by
  intro line hline
  rcases mem_scope hline with ⟨id, -, n, hn, s, hs, rfl⟩ | ⟨id, -, n, -, rfl⟩ | rfl
  · exact ⟨isNumeric_held (h.output_kind hn hs), isName_outputName _ _⟩
  · exact ⟨(isName_calleeName n).1, plain_argumentsOf n⟩
  · exact hlast

/-- What the lines of a scope call, but for the last one, are the functions of its nodes. -/
theorem callees_scope {ids : List Nat} {last line : Line} (h : line ∈ scope g ids last)
    {name : String} (hname : name ∈ line.callees) :
    (∃ id ∈ ids, ∃ n, g.node? id = some n ∧ name = calleeName n) ∨ name ∈ last.callees := by
  rcases mem_scope h with ⟨id, -, n, -, s, -, rfl⟩ | ⟨id, hid, n, hn, rfl⟩ | rfl
  · cases hname
  · exact Or.inl ⟨id, hid, n, hn, List.mem_singleton.mp hname⟩
  · exact Or.inr hname

theorem isFree_callees_scope {ids : List Nat} {last : Line} (hlast : ∀ f ∈ last.callees, IsFree f) :
    ∀ line ∈ scope g ids last, ∀ f ∈ line.callees, IsFree f := by
  intro line hline f hf
  rcases callees_scope hline hf with ⟨id, -, n, -, rfl⟩ | hf
  · exact (isName_calleeName n).2
  · exact hlast f hf

end Texel.Program
