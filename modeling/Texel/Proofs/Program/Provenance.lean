import Mathlib.Logic.Relation
import Texel.Proofs.Program.Assembly
import Texel.Proofs.Program.Definitions

/-!
# Texel — whose code runs

The libraries of all nodes are put behind one another, and a name stands for the last function that
has it. So the code that a node runs may not be its own: a function of its library gives way to one
of the same name from another library that comes later, unless it has been pasted by then.

Here libraries are **settled**, which keeps the functions of one from running into those of the
next. Then every definition of a program is the definition of some node's library, and a node runs
its own code where the libraries agree on what the names mean.

* **`exists_source`** — where a definition comes from.
* **`Reaches`** — the functions that a function calls, directly or not.
* **`own_definitions`** — a single-pass node runs the code of its own library, as far as no other
  library defines the same names differently.
* **`own_subtree`** — a multi-pass node samples what feeds it and nothing else, as long as no helper
  that leads to its subtree function serves another node.
-/

namespace Texel

namespace Glsl

instance (text : String) : Decidable (Settled text) :=
  decidable_of_iff ((Lexer.run {} text.toList).mode = .code ∧
    (Lexer.run {} text.toList).fresh = true ∧
    ((tokens text).foldl Reader.step {}).stage = .outside)
    ⟨fun h => ⟨h.1, h.2.1, h.2.2⟩, fun h => ⟨h.mode, h.fresh, h.outside⟩⟩

/-- The definition that a name has in a library. -/
def definitionIn? (library name : String) : Option String :=
  (find? (functionsIn library) name).bind (·.definitionText? library)

theorem definitionIn?_eq (library name : String) :
    definitionIn? library name = (Entry.find? (entries library) name).map (·.text) := by
  rw [definitionIn?, find?_entries]
  cases find? (functionsIn library) name with
  | none => rfl
  | some f =>
    show f.definitionText? library = (f.entryIn? library).map (·.text)
    rw [Function.entryIn?, Option.map_map]
    exact Option.map_id'.symm

/-- The words of a text. -/
def words (text : String) : List String := (tokens text).filterMap Token.word?

theorem Entry.find?_append (es fs : List Entry) (name : String) :
    Entry.find? (es ++ fs) name = (Entry.find? fs name).or (Entry.find? es name) := by
  rw [Entry.find?, List.reverse_append, List.find?_append, Entry.find?, Entry.find?]

def Line.callee? : Line → Option String
  | .call function _ => some function
  | _ => none

/-- The functions that a piece calls. -/
def Piece.calls : Piece → List String
  | .line code => code.callee?.toList
  | .definition _ text => (functionsIn text).flatMap (·.calls)
  | .block _ lines => lines.filterMap Line.callee?

/-- The text of an entry calls what the entry says. -/
theorem calls_of_mem_entries {library : String} {e : Entry} (h : e ∈ entries library) :
    (Piece.definition e.name e.text).calls = e.calls := by
  obtain ⟨f, hf, hheading⟩ := exists_function_of_mem_entries h
  rw [Piece.calls, hf, List.flatMap_singleton]
  exact congrArg Heading.calls hheading

end Glsl

namespace Program

open Glsl

variable {β : Type} [Operable β] {g : Graph β} {order done ids : List Nat} {n m : Node β}
  {ns : List (Node β)} {p : Program}

/-! ## Libraries put together -/

/-- Every node adds a settled text to the libraries. -/
def Tidy (g : Graph β) : Prop := ∀ n ∈ g.nodes, Settled (contribution n)

instance (g : Graph β) : Decidable (Tidy g) :=
  inferInstanceAs (Decidable (∀ n ∈ g.nodes, Settled (contribution n)))

theorem entries_libraryOf (h : ∀ n ∈ ns, Settled (contribution n)) :
    Settled (libraryOf ns) ∧
    entries (libraryOf ns) = ns.flatMap fun n => entries (contribution n) := by
  induction ns using List.reverseRecOn with
  | nil => exact ⟨settled_empty, rfl⟩
  | append_singleton ns n ih =>
    obtain ⟨hsettled, hentries⟩ := ih fun m hm => h m (List.mem_append_left _ hm)
    have hn : Settled (contribution n) := h n (by simp)
    rw [libraryOf_concat]
    refine ⟨hsettled.append hn, ?_⟩
    rw [entries_append hsettled.complete, hentries, List.flatMap_append, List.flatMap_singleton]

/-- **Where a function comes from.** What is found in the libraries is found in one of them. -/
theorem exists_source_of_find? (h : ∀ n ∈ ns, Settled (contribution n)) {name : String} {e : Entry}
    (hfind : Entry.find? (entries (libraryOf ns)) name = some e) :
    ∃ n ∈ ns, Entry.find? (entries (contribution n)) name = some e := by
  rw [(entries_libraryOf h).2] at hfind
  clear h
  induction ns with
  | nil => cases hfind
  | cons n ns ih =>
    rw [List.flatMap_cons, Entry.find?_append] at hfind
    rcases Option.or_eq_some_iff.mp hfind with hlater | ⟨_, hfirst⟩
    · obtain ⟨m, hm, hfound⟩ := ih hlater
      exact ⟨m, List.mem_cons_of_mem _ hm, hfound⟩
    · exact ⟨n, List.mem_cons_self, hfirst⟩

/-- What is in one library is found. -/
theorem isSome_find?_of_source (h : ∀ n ∈ ns, Settled (contribution n)) (hn : n ∈ ns)
    {name : String} (hfind : (Entry.find? (entries (contribution n)) name).isSome) :
    (Entry.find? (entries (libraryOf ns)) name).isSome := by
  obtain ⟨e, he⟩ := Option.isSome_iff_exists.mp hfind
  rw [(entries_libraryOf h).2, ← Option.ne_none_iff_isSome, ne_eq, Entry.find?_eq_none_iff, not_not,
    ← Entry.name_of_find? he]
  exact List.mem_map_of_mem (List.mem_flatMap.mpr ⟨n, hn, Entry.mem_of_find? he⟩)

theorem mem_suppliers (h : n ∈ suppliers g ids) :
    n ∈ g.nodes ∧ ¬ (operatorOf n).multiPass = true := by
  refine List.foldlRecOn
    (motive := fun found => ∀ m ∈ found, m ∈ g.nodes ∧ ¬ (operatorOf m).multiPass = true)
    (ids.filterMap g.node?) addSupplier (fun m hm => absurd hm List.not_mem_nil)
    (fun found hfound k hk m hm => ?_) n h
  rw [addSupplier] at hm
  split_ifs at hm with hskip
  · exact hfound m hm
  · rcases List.mem_append.mp hm with hm | hm
    · exact hfound m hm
    · obtain rfl := List.mem_singleton.mp hm
      obtain ⟨id, _, hid⟩ := List.mem_filterMap.mp hk
      exact ⟨List.mem_of_getElem? hid, (not_or.mp hskip).1⟩

theorem mem_sources (h : n ∈ sources g order done) : n ∈ g.nodes := by
  rcases List.mem_append.mp h with h | h
  · exact (mem_suppliers h).1
  · obtain ⟨id, _, hid⟩ := List.mem_filterMap.mp (List.mem_filter.mp h).1
    exact List.mem_of_getElem? hid

theorem subset_addSupplier (found : List (Node β)) (n : Node β) : found ⊆ addSupplier found n := by
  rw [addSupplier]
  split_ifs
  · exact List.Subset.refl _
  · exact List.subset_append_left _ _

theorem exists_mem_addSupplier (found : List (Node β))
    (hsingle : ¬ (operatorOf n).multiPass = true) :
    ∃ m ∈ addSupplier found n, (operatorOf m).function = (operatorOf n).function := by
  by_cases hold : (operatorOf n).function ∈ found.map (operatorOf · |>.function)
  · obtain ⟨m, hm, hfunction⟩ := List.mem_map.mp hold
    exact ⟨m, subset_addSupplier found n hm, hfunction⟩
  · have hnew : addSupplier found n = found ++ [n] := if_neg (not_or.mpr ⟨hsingle, hold⟩)
    exact ⟨n, by simp [hnew], rfl⟩

/-- Some node adds a library for the function of a single-pass node. -/
theorem exists_supplier {id : Nat} (hid : id ∈ ids) (hn : g.node? id = some n)
    (hsingle : ¬ (operatorOf n).multiPass = true) :
    ∃ m ∈ suppliers g ids, (operatorOf m).function = (operatorOf n).function := by
  obtain ⟨before, after, hsplit⟩ :=
    List.append_of_mem (List.mem_filterMap.mpr ⟨id, hid, hn⟩ : n ∈ ids.filterMap g.node?)
  obtain ⟨m, hm, hfunction⟩ := exists_mem_addSupplier (before.foldl addSupplier []) hsingle
  refine ⟨m, ?_, hfunction⟩
  rw [suppliers, hsplit, List.foldl_append, List.foldl_cons]
  exact List.foldlRecOn (motive := fun found => m ∈ found) after addSupplier hm
    fun found hfound k _ => subset_addSupplier found k hfound

/-! ## Programs -/

/-- The definition of a function calls another. -/
def Calls (p : Program) (caller called : String) : Prop :=
  ∃ text, .definition caller text ∈ p.definitions ∧ called ∈ (Piece.definition caller text).calls

/-- The function is called, directly or not, by definitions of the program. -/
def Reaches (p : Program) : String → String → Prop := Relation.ReflTransGen (Calls p)

/-- **Where a definition comes from.** -/
theorem Assembly.exists_source (h : Assembly g p) (htidy : Tidy g) {name text : String}
    (hmem : .definition name text ∈ p.definitions) :
    ∃ n ∈ g.nodes, ∃ e, Entry.find? (entries (contribution n)) name = some e ∧ e.text = text ∧
      (Piece.definition name text).calls = e.calls := by
  obtain ⟨library, e, ⟨done, _, rfl⟩, hfind, rfl, _⟩ := h.copies name text hmem
  have hsettled : ∀ n ∈ sources g p.order done, Settled (contribution n) :=
    fun n hn => htidy n (mem_sources hn)
  obtain ⟨n, hn, hown⟩ := exists_source_of_find? hsettled hfind
  refine ⟨n, mem_sources hn, e, hown, rfl, ?_⟩
  rw [← Entry.name_of_find? hown]
  exact calls_of_mem_entries (Entry.mem_of_find? hown)

/-- What definitions reach is defined, if some single-pass node defines it. -/
theorem Assembly.exists_definition (h : Assembly g p) (htidy : Tidy g) {caller name : String}
    (hcaller : ∃ text, .definition caller text ∈ p.definitions) (hreach : Reaches p caller name)
    (hn : n ∈ suppliers g p.order)
    (hfind : (Entry.find? (entries (contribution n)) name).isSome) :
    ∃ text, .definition name text ∈ p.definitions := by
  cases hreach with
  | refl => exact hcaller
  | tail _ hcall =>
    obtain ⟨text, hmem, hcall⟩ := hcall
    obtain ⟨library, e, ⟨done, _, rfl⟩, hfound, rfl, hcalls⟩ := h.copies _ text hmem
    have hsettled : ∀ n ∈ sources g p.order done, Settled (contribution n) :=
      fun n hn => htidy n (mem_sources hn)
    refine hcalls name ?_ (isSome_find?_of_source hsettled (List.mem_append_left _ hn) hfind)
    rw [← calls_of_mem_entries (Entry.mem_of_find? hfound), Entry.name_of_find? hfound]
    exact hcall

/-! ## Single-pass nodes -/

/-- Nodes with the same function have the same library. -/
def OneLibrary (g : Graph β) : Prop :=
  ∀ n ∈ g.nodes, ∀ m ∈ g.nodes, (operatorOf n).function = (operatorOf m).function →
    (operatorOf n).library = (operatorOf m).library

instance (g : Graph β) : Decidable (OneLibrary g) :=
  inferInstanceAs (Decidable (∀ n ∈ g.nodes, ∀ m ∈ g.nodes,
    (operatorOf n).function = (operatorOf m).function →
      (operatorOf n).library = (operatorOf m).library))

theorem contribution_of_single (h : ¬ (operatorOf n).multiPass = true) :
    contribution n = (operatorOf n).library ++ "\n" := if_neg h

theorem calleeName_of_single (h : ¬ (operatorOf n).multiPass = true) :
    calleeName n = (operatorOf n).function := if_neg h

/-- What a single-pass node has in its library is in the libraries from the start. -/
theorem exists_supplier_entry (hlibrary : OneLibrary g) (hn : n ∈ g.nodes)
    (hsingle : ¬ (operatorOf n).multiPass = true) {id : Nat} (hid : id ∈ ids)
    (hnode : g.node? id = some n) :
    ∃ m ∈ suppliers g ids, entries (contribution m) = entries (operatorOf n).library := by
  obtain ⟨m, hm, hfunction⟩ := exists_supplier hid hnode hsingle
  obtain ⟨hnodes, hsingle'⟩ := mem_suppliers hm
  refine ⟨m, hm, ?_⟩
  rw [contribution_of_single hsingle', entries_newline, hlibrary m hnodes n hn hfunction]

/-- **A single-pass node runs its own code.** Take a function that its function reaches and that its
library defines. If no node has another definition under that name, the program has this one. -/
theorem own_definitions (operations : List (Graph.Operation β)) {p : Program}
    (h : (generate.run (Graph.ofOperations operations)).result = .ok p)
    (hlibrary : OneLibrary (Graph.ofOperations operations))
    (htidy : Tidy (Graph.ofOperations operations)) {n : Node β}
    (hn : n ∈ (Graph.ofOperations operations).nodes) (hsingle : ¬ (operatorOf n).multiPass = true)
    {name text : String} (hreach : Reaches p (operatorOf n).function name)
    (hown : definitionIn? (operatorOf n).library name = some text)
    (hagree : ∀ m ∈ (Graph.ofOperations operations).nodes,
      definitionIn? (contribution m) name = none ∨
      definitionIn? (contribution m) name = some text) :
    ∀ other, .definition name other ∈ p.definitions ↔ other = text := by
  have hwell := Graph.wellFormed_ofOperations operations
  have hassembly := assembly_of_generate hwell h
  -- whatever is defined comes from some library, and the libraries agree
  have honly : ∀ other, .definition name other ∈ p.definitions → other = text := by
    intro other hmem
    obtain ⟨m, hm, e, hfind, rfl, _⟩ := hassembly.exists_source htidy hmem
    have hdefinition : definitionIn? (contribution m) name = some e.text := by
      rw [definitionIn?_eq, hfind]
      rfl
    rcases hagree m hm with hnone | hsome
    · rw [hnone] at hdefinition
      cases hdefinition
    · exact Option.some.inj (hdefinition.symm.trans hsome)
  -- and something is defined, since the own library has been there from the start
  obtain ⟨found, hfound⟩ : ∃ found, .definition name found ∈ p.definitions := by
    obtain ⟨m, hm, hentries⟩ := exists_supplier_entry hlibrary hn hsingle
      (mem_order hwell hassembly.isOrder hn) (node?_of_mem hwell hn)
    have hcallee := hassembly.called n hn
    rw [calleeName_of_single hsingle] at hcallee
    refine hassembly.exists_definition htidy hcallee hreach hm ?_
    rw [definitionIn?_eq] at hown
    obtain ⟨e, he, _⟩ := Option.map_eq_some_iff.mp hown
    rw [hentries, he]
    rfl
  intro other
  refine ⟨honly other, ?_⟩
  rintro rfl
  rwa [← honly found hfound]

theorem exists_program {α : Type} {f : Program → α} {x : α}
    (h : (generate.run g).result.toOption.map f = some x) :
    ∃ p, (generate.run g).result = .ok p ∧ f p = x := by
  obtain ⟨p, hp, rfl⟩ := Option.map_eq_some_iff.mp h
  cases hresult : (generate.run g).result with
  | error e => rw [hresult] at hp; cases hp
  | ok q => rw [hresult] at hp; exact ⟨p, congrArg Except.ok (Option.some.inj hp), rfl⟩

def warm : Operator where
  function := "warm"
  library := "float h()\x7breturn 1.;\x7dvoid warm(out vec4 r)\x7br=vec4(h());\x7d"
  outputs := [("Color", .vec4)]

/-- Has the helper of `warm`, word for word. -/
def cool : Operator where
  function := "cool"
  library := "float h()\x7breturn 1.;\x7dvoid cool(out vec4 r)\x7br=-vec4(h());\x7d"
  outputs := [("Color", .vec4)]

def breeze : List (Graph.Operation Operator) := [.edit (.create warm), .edit (.create cool)]

theorem exists_breeze : ∃ p, (generate.run (.ofOperations breeze)).result = .ok p ∧ p.definitions =
    [.definition "h" "float h()\x7breturn 1.;\x7d",
      .definition "warm" "void warm(out vec4 r)\x7br=vec4(h());\x7d",
      .definition "cool" "void cool(out vec4 r)\x7br=-vec4(h());\x7d"] :=
  exists_program (by decide +kernel)

/-- A helper that two libraries share. -/
theorem warm_runs_own_helper :
    ∃ p, (generate.run (.ofOperations breeze)).result = .ok p ∧
      Reaches p "warm" "h" ∧ definitionIn? warm.library "h" = some "float h()\x7breturn 1.;\x7d" ∧
      ∀ other, .definition "h" other ∈ p.definitions ↔ other = "float h()\x7breturn 1.;\x7d" := by
  obtain ⟨p, hp, hdefinitions⟩ := exists_breeze
  have hreach : Reaches p "warm" "h" := by
    refine .single ⟨"void warm(out vec4 r)\x7br=vec4(h());\x7d", ?_, by decide +kernel⟩
    rw [hdefinitions]
    decide +kernel
  have hown : definitionIn? warm.library "h" = some "float h()\x7breturn 1.;\x7d" := by
    decide +kernel
  have hn : { warm.ports with id := 0, behavior := warm } ∈ (Graph.ofOperations breeze).nodes :=
    List.mem_of_getElem? (i := 0) rfl
  exact ⟨p, hp, hreach, hown, own_definitions breeze hp (by decide +kernel) (by decide +kernel) hn
    (by decide) hreach hown (by decide +kernel)⟩

/-- Has a helper of the same name as `warm`, and does not even call it. -/
def cold : Operator where
  function := "cold"
  library := "float h()\x7breturn 2.;\x7dvoid cold(out vec4 r)\x7b\x7d"
  outputs := [("Color", .vec4)]

def draught : List (Graph.Operation Operator) := [.edit (.create warm), .edit (.create cold)]

/-- The function `warm` runs the helper of a library that has nothing to do with it. -/
theorem warm_runs_other_helper :
    OneLibrary (.ofOperations draught) ∧ Tidy (.ofOperations draught) ∧
    ∃ p, (generate.run (.ofOperations draught)).result = .ok p ∧ Reaches p "warm" "h" ∧
      definitionIn? warm.library "h" = some "float h()\x7breturn 1.;\x7d" ∧
      .definition "h" "float h()\x7breturn 1.;\x7d" ∉ p.definitions ∧
      .definition "h" "float h()\x7breturn 2.;\x7d" ∈ p.definitions := by
  have hwarm :
      "h" ∈ (Piece.definition "warm" "void warm(out vec4 r)\x7br=vec4(h());\x7d").calls := by
    decide +kernel
  obtain ⟨p, hp, hdefinitions⟩ : ∃ p, (generate.run (.ofOperations draught)).result = .ok p ∧
      p.definitions = [.definition "h" "float h()\x7breturn 2.;\x7d",
        .definition "warm" "void warm(out vec4 r)\x7br=vec4(h());\x7d",
        .definition "cold" "void cold(out vec4 r)\x7b\x7d"] :=
    exists_program (by decide +kernel)
  refine ⟨by decide +kernel, by decide +kernel, p, hp, .single ⟨_, ?_, hwarm⟩, by decide +kernel,
    ?_, ?_⟩
  · rw [hdefinitions]
    decide +kernel
  · rw [hdefinitions]
    decide +kernel
  · rw [hdefinitions]
    decide +kernel

/-! ## Multi-pass nodes -/

/-- A function of some entries has the word in its text, or calls one that leads there. -/
inductive LeadsTo (es : List Entry) (word : String) : (name : String) → Prop
  | mentions {e : Entry} (he : e ∈ es) (hword : word ∈ words e.text) : LeadsTo es word e.name
  | calls {e : Entry} {called : String} (he : e ∈ es) (hcalled : called ∈ e.calls)
    (h : LeadsTo es word called) : LeadsTo es word e.name

/-- The subtree function of a node is its own: nobody else's library mentions it, and no function of
its library that leads there is called by another library or is the function of another node. -/
def SubtreesApart (g : Graph β) : Prop :=
  ∀ k ∈ g.nodes, (operatorOf k).multiPass = true → ∀ m ∈ g.nodes, m.id ≠ k.id →
    (∀ e ∈ entries (contribution m), subtreeName k.id ∉ words e.text) ∧
    ∀ name, LeadsTo (entries (contribution k)) (subtreeName k.id) name →
      name ≠ calleeName m ∧ ∀ e ∈ entries (contribution m), name ∉ e.calls

/-- **The chain of calls**, from its end. What reaches a mention of a subtree function has been
copied from the library of the node whose subtree it is. -/
theorem Assembly.leadsTo (hwell : g.WellFormed) (h : Assembly g p) (htidy : Tidy g)
    (hapart : SubtreesApart g) {k : Node β} (hk : k ∈ g.nodes)
    (hmulti : (operatorOf k).multiPass = true) {caller name text : String}
    (hreach : Reaches p caller name) (hmem : .definition name text ∈ p.definitions)
    (hword : subtreeName k.id ∈ words text) :
    LeadsTo (entries (contribution k)) (subtreeName k.id) caller := by
  -- the first step is the last to be looked at: only then is it known where its target leads
  induction hreach using Relation.ReflTransGen.head_induction_on with
  | refl =>
    obtain ⟨m, hm, e, hfind, rfl, _⟩ := h.exists_source htidy hmem
    have hentry := Entry.mem_of_find? hfind
    by_cases hmk : m.id = k.id
    · obtain rfl := eq_of_id hwell hm hk hmk
      rw [← Entry.name_of_find? hfind]
      exact .mentions hentry hword
    · exact absurd hword ((hapart k hk hmulti m hm hmk).1 e hentry)
  | head hcall _ ih =>
    obtain ⟨other, hother, hcalled⟩ := hcall
    obtain ⟨m, hm, e, hfind, rfl, hcalls⟩ := h.exists_source htidy hother
    have hentry := Entry.mem_of_find? hfind
    rw [hcalls] at hcalled
    by_cases hmk : m.id = k.id
    · obtain rfl := eq_of_id hwell hm hk hmk
      rw [← Entry.name_of_find? hfind]
      exact .calls hentry hcalled ih
    · exact absurd hcalled (((hapart k hk hmulti m hm hmk).2 _ ih).2 e hentry)

/-- **A multi-pass node samples its own upstream.** Its function is defined, and no definition that
it reaches mentions the subtree function of another node. -/
theorem own_subtree (operations : List (Graph.Operation β)) {p : Program}
    (h : (generate.run (Graph.ofOperations operations)).result = .ok p)
    (htidy : Tidy (Graph.ofOperations operations))
    (hapart : SubtreesApart (Graph.ofOperations operations)) {n : Node β}
    (hn : n ∈ (Graph.ofOperations operations).nodes) (hmulti : (operatorOf n).multiPass = true) :
    (∃ text, .definition (specialisedName (operatorOf n).function n.id) text ∈ p.definitions) ∧
    ∀ name text, Reaches p (specialisedName (operatorOf n).function n.id) name →
      .definition name text ∈ p.definitions →
      ∀ k ∈ (Graph.ofOperations operations).nodes, (operatorOf k).multiPass = true → k.id ≠ n.id →
        subtreeName k.id ∉ words text := by
  have hwell := Graph.wellFormed_ofOperations operations
  have hassembly := assembly_of_generate hwell h
  have hcallee : calleeName n = specialisedName (operatorOf n).function n.id := if_pos hmulti
  rw [← hcallee]
  refine ⟨hassembly.called n hn, fun name text hreach hmem k hk hk' hne hword => ?_⟩
  have hleads := hassembly.leadsTo hwell htidy hapart hk hk' hreach hmem hword
  exact ((hapart k hk hk' n hn (Ne.symm hne)).2 _ hleads).1 rfl

/-- Names that are closed under leading to a word hold all that do. -/
theorem LeadsTo.mem {es : List Entry} {word name : String} {names : List String}
    (hmentions : ∀ e ∈ es, word ∈ words e.text → e.name ∈ names)
    (hcalls : ∀ e ∈ es, ∀ called ∈ e.calls, called ∈ names → e.name ∈ names)
    (h : LeadsTo es word name) : name ∈ names := by
  induction h with
  | mentions he hword => exact hmentions _ he hword
  | calls he hcalled _ ih => exact hcalls _ he _ hcalled ih

/-- The subtree functions are apart if names can be given for each, closed under leading to it, that
no other library calls. -/
theorem subtreesApart_of_names (names : Node β → List String)
    (hclosed : ∀ k ∈ g.nodes, (operatorOf k).multiPass = true → ∀ e ∈ entries (contribution k),
      subtreeName k.id ∈ words e.text ∨ (∃ called ∈ e.calls, called ∈ names k) → e.name ∈ names k)
    (hapart : ∀ k ∈ g.nodes, (operatorOf k).multiPass = true → ∀ m ∈ g.nodes, m.id ≠ k.id →
      calleeName m ∉ names k ∧ ∀ e ∈ entries (contribution m),
        subtreeName k.id ∉ words e.text ∧ ∀ called ∈ e.calls, called ∉ names k) :
    SubtreesApart g := by
  intro k hk hmulti m hm hne
  obtain ⟨hcallee, hentries⟩ := hapart k hk hmulti m hm hne
  refine ⟨fun e he => (hentries e he).1, fun name hleads => ?_⟩
  have hname : name ∈ names k := by
    refine hleads.mem (fun e he hword => hclosed k hk hmulti e he (Or.inl hword)) ?_
    exact fun e he called hcalled hmem => hclosed k hk hmulti e he (Or.inr ⟨called, hcalled, hmem⟩)
  refine ⟨fun heq => hcallee (heq ▸ hname), fun e he hcalled => ?_⟩
  exact (hentries e he).2 name hcalled hname

/-- What feeds it, without a helper. -/
def gauze : Operator where
  function := "s"
  library := "void s(out vec4 r)\x7br=$subtree(vec2(0));\x7d"
  inputs := [("Source", .vec4)]
  outputs := [("Color", .vec4)]
  multiPass := true

def layers : List (Graph.Operation Operator) :=
  [.edit (.create gauze), .edit (.create gauze), .edit (.connect ⟨0, 0, 1, 0⟩)]

theorem subtreesApart_layers : SubtreesApart (.ofOperations layers) :=
  subtreesApart_of_names (fun k => [calleeName k]) (by decide +kernel) (by decide +kernel)

theorem exists_layers : ∃ p, (generate.run (.ofOperations layers)).result = .ok p ∧ p.definitions =
    [.block (some "vec4 subtree_0(vec2 cUV)") [.ret (.zero .vec4)],
      .definition "s_0" "void s_0(out vec4 r)\x7br=subtree_0(vec2(0));\x7d",
      .block (some "vec4 subtree_1(vec2 cUV)")
        [.declare .vec4 "out_0_0", .call "s_0" [.var "out_0_0"],
          .ret (.convert .identity (.var "out_0_0"))],
      .definition "s_1" "void s_1(out vec4 r)\x7br=subtree_1(vec2(0));\x7d"] :=
  exists_program (by decide +kernel)

/-- Each of two layers samples what is below it. -/
theorem layers_sample_own_upstream :
    ∃ p, (generate.run (.ofOperations layers)).result = .ok p ∧
      .definition "s_1" "void s_1(out vec4 r)\x7br=subtree_1(vec2(0));\x7d" ∈ p.definitions ∧
      ∀ name text, Reaches p "s_1" name → .definition name text ∈ p.definitions →
        "subtree_0" ∉ words text := by
  obtain ⟨p, hp, hdefinitions⟩ := exists_layers
  obtain ⟨k, hk, hk', hlower⟩ : ∃ k ∈ (Graph.ofOperations layers).nodes,
      (operatorOf k).multiPass = true ∧ k.id = 0 := by decide +kernel
  obtain ⟨n, hn, hn', hupper, hfunction⟩ : ∃ n ∈ (Graph.ofOperations layers).nodes,
      (operatorOf n).multiPass = true ∧ n.id = 1 ∧ (operatorOf n).function = "s" := by
        decide +kernel
  have hown := (own_subtree layers hp (by decide +kernel) subtreesApart_layers hn hn').2
  rw [hupper, hfunction] at hown
  refine ⟨p, hp, by rw [hdefinitions]; decide +kernel, fun name text hreach hmem => ?_⟩
  have hother := hown name text hreach hmem k hk hk' (by omega)
  rwa [hlower] at hother

/-- What feeds it, through a helper. -/
def veil : Operator where
  function := "v"
  library := "vec4 t()\x7breturn $subtree(vec2(0));\x7dvoid v(out vec4 r)\x7br=t();\x7d"
  inputs := [("Source", .vec4)]
  outputs := [("Color", .vec4)]
  multiPass := true

def curtain : List (Graph.Operation Operator) :=
  [.edit (.create veil), .edit (.create veil), .edit (.connect ⟨0, 0, 1, 0⟩)]

theorem exists_curtain :
    ∃ p, (generate.run (.ofOperations curtain)).result = .ok p ∧ p.definitions =
    [.block (some "vec4 subtree_0(vec2 cUV)") [.ret (.zero .vec4)],
      .definition "t" "vec4 t()\x7breturn subtree_0(vec2(0));\x7d",
      .definition "v_0" "void v_0(out vec4 r)\x7br=t();\x7d",
      .block (some "vec4 subtree_1(vec2 cUV)")
        [.declare .vec4 "out_0_0", .call "v_0" [.var "out_0_0"],
          .ret (.convert .identity (.var "out_0_0"))],
      .definition "v_1" "void v_1(out vec4 r)\x7br=t();\x7d"] :=
  exists_program (by decide +kernel)

/-- The second veil shares the helper of the first, and samples what feeds that one. -/
theorem veil_samples_other_upstream :
    Tidy (.ofOperations curtain) ∧
    ∃ p, (generate.run (.ofOperations curtain)).result = .ok p ∧ Reaches p "v_1" "t" ∧
      .definition "t" "vec4 t()\x7breturn subtree_0(vec2(0));\x7d" ∈ p.definitions ∧
      "subtree_0" ∈ words "vec4 t()\x7breturn subtree_0(vec2(0));\x7d" := by
  have hveil : "t" ∈ (Piece.definition "v_1" "void v_1(out vec4 r)\x7br=t();\x7d").calls := by
    decide +kernel
  obtain ⟨p, hp, hdefinitions⟩ := exists_curtain
  refine ⟨by decide +kernel, p, hp, .single ⟨_, ?_, hveil⟩, ?_, by decide +kernel⟩
  · rw [hdefinitions]
    decide +kernel
  · rw [hdefinitions]
    decide +kernel

end Program
end Texel
