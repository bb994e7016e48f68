import Texel.Proofs.Glsl.Interruption
import Texel.Proofs.Program.Generation

/-!
# Texel — blocks keep to themselves

Code goes to the innermost open block, but what is pasted, and a block once it is closed, go to the
definitions at once. So a function can be put together while another one is being written. When its
block is closed, the code around it is as it was, and the definitions have grown by what was
finished inside, in that order, and then by the function. Neither failures on the way nor the depth
matter.

* **`Copies`** — what pasting copies, whatever is known and however it ends; **`exists_copies`** and
  **`paste_finishes`** say that this is what the emitter does.
* **`Step`**, **`run`** — any operations, one after another; what a failed one has done stays.
* **`Bracketed`** — every block that is opened is closed.
* **`Writes`** — the lines that go to the open block itself, and the pieces that go past it.
* **`run_writes`** — the emitter does that, and nothing else. The induction is on `Writes`.
* **`run_function`** — a function block, from its opening to its closing.
-/

namespace Texel

/-! ## Actions, however they end -/

namespace Action

variable {σ ε α : Type} {s s' s'' : σ} {ok : Bool}

/-- The action leaves the state `s'`; `ok` tells whether it succeeds. -/
def Finishes (x : Action σ ε Unit) (s : σ) (ok : Bool) (s' : σ) : Prop :=
  match ok with
  | true => x.Returns s () s'
  | false => x.Stops s s'

theorem Finishes.state_eq {x : Action σ ε Unit} (h : x.Finishes s ok s') :
    (x.run s).state = s' := by
  cases ok with
  | true => exact h.2
  | false =>
    obtain ⟨_, _, hstate⟩ := h
    exact hstate

theorem Returns.finishes {x : Action σ ε α} {f : α → Action σ ε Unit} {a : α} (h : x.Returns s a s')
    (hf : (f a).Finishes s' ok s'') : (x >>= f).Finishes s ok s'' := by
  cases ok with
  | true => exact h.bind hf
  | false => exact h.stops hf

/-- A loop over one item. -/
theorem finishes_of_each_singleton {f : α → Action σ ε Unit} {a : α}
    (h : (Action.each f [a]).Finishes s ok s') : (f a).Finishes s ok s' := by
  cases ok with
  | true => exact Returns.of_each_singleton h
  | false =>
    obtain ⟨e, herror, hstate⟩ := h
    rcases error_of_bind herror with hfirst | ⟨_, _, _, hrest⟩
    · exact ⟨e, hfirst, (state_bind_of_error hfirst).symm.trans hstate⟩
    · cases hrest

end Action

namespace Glsl

open Texel.Action

theorem renderPieces_append (ps qs : List Piece) :
    renderPieces (ps ++ qs) = renderPieces ps ++ renderPieces qs := by
  rw [renderPieces, List.map_append, String.join_append]
  rfl

/-! ## Pasting -/

/-- What pasting `names` one after another copies, up to the first one that cannot be pasted. The
marks tell which functions count as pasted, before and after; `ok` tells whether all of them could
be. -/
inductive Copies (fs : List Function) (library : String) :
    (marks names : List String) → List Piece → List String → (ok : Bool) → Prop
  | nil {p : List String} : Copies fs library p [] [] p true
  | skip {p names q : List String} {name : String} {ps : List Piece} {ok : Bool} (hname : name ∈ p)
    (hnames : Copies fs library p names ps q ok) : Copies fs library p (name :: names) ps q ok
  | unknown {p names : List String} {name : String} (hname : name ∉ p)
    (hunknown : find? fs name = none) : Copies fs library p (name :: names) [] p false
  /-- What the function calls cannot be pasted. The function keeps its mark. -/
  | stuck {p names q : List String} {name : String} {f : Function} {ps : List Piece}
    (hname : name ∉ p)
    (hf : find? fs name = some f)
    (hcalls : Copies fs library (name :: p)
      (f.calls.filter fun called => (find? fs called).isSome) ps q false) :
    Copies fs library p (name :: names) ps q false
  | outOfRange {p names q : List String} {name : String} {f : Function} {ps : List Piece}
    (hname : name ∉ p) (hf : find? fs name = some f)
    (hcalls : Copies fs library (name :: p)
      (f.calls.filter fun called => (find? fs called).isSome) ps q true)
    (htext : f.definitionText? library = none) : Copies fs library p (name :: names) ps q false
  /-- A function comes after the known functions that it calls. -/
  | copy {p names q r : List String} {name text : String} {f : Function} {ps ps' : List Piece}
    {ok : Bool} (hname : name ∉ p) (hf : find? fs name = some f)
    (hcalls : Copies fs library (name :: p)
      (f.calls.filter fun called => (find? fs called).isSome) ps q true)
    (htext : f.definitionText? library = some text) (hnames : Copies fs library q names ps' r ok) :
    Copies fs library p (name :: names) (ps ++ Piece.definition name text :: ps') r ok

variable {fs : List Function} {library : String} {p q names : List String} {ps : List Piece}
    {ok : Bool}

theorem Copies.kept (h : Copies fs library p names ps q ok) : p ⊆ q := by
  induction h with
  | nil => exact List.Subset.refl _
  | skip _ _ ih => exact ih
  | unknown => exact List.Subset.refl _
  | stuck _ _ _ ih => exact List.subset_of_cons_subset ih
  | outOfRange _ _ _ _ ih => exact List.subset_of_cons_subset ih
  | copy _ _ _ _ _ ihcalls ihnames =>
    exact List.Subset.trans (List.subset_of_cons_subset ihcalls) ihnames

/-- The turns that are left once a known name has had its own. -/
theorem left_known {name : String} {f : Function} (hf : find? fs name = some f) (hname : name ∉ p) :
    left (fs.map (·.name)) (name :: p) < left (fs.map (·.name)) p := by
  refine left_cons_lt ?_ hname
  exact List.mem_map.mpr ⟨f, mem_of_find? hf, name_of_find? hf⟩

theorem exists_room {name : String} {f : Function} {d : Nat} (hf : find? fs name = some f)
    (hname : name ∉ p) (hroom : left (fs.map (·.name)) p ≤ d) :
    ∃ k, d = k + 1 ∧ left (fs.map (·.name)) (name :: p) ≤ k := by
  have hless := left_known hf hname
  exact ⟨d - 1, by omega, by omega⟩

/-- **Room.** The induction is on the turns that are left, and then on the names. -/
theorem exists_copies (fs : List Function) (library : String) (d : Nat) :
    ∀ p names, left (fs.map (·.name)) p ≤ d → ∃ ps q ok, Copies fs library p names ps q ok := by
  induction d using Nat.strong_induction_on with
  | _ d ihroom =>
    intro p names hroom
    induction names generalizing p with
    | nil => exact ⟨[], p, true, .nil⟩
    | cons name names ih =>
      by_cases hname : name ∈ p
      · obtain ⟨ps, q, ok, hnames⟩ := ih p hroom
        exact ⟨ps, q, ok, .skip hname hnames⟩
      cases hf : find? fs name with
      | none => exact ⟨[], p, false, .unknown hname hf⟩
      | some f =>
        -- the calls have a turn less, and the other names as many as before
        have hless := left_known hf hname
        obtain ⟨ps, q, ok, hcalls⟩ := ihroom _ (hless.trans_le hroom) (name :: p)
          (f.calls.filter fun called => (find? fs called).isSome) le_rfl
        cases ok with
        | false => exact ⟨ps, q, false, .stuck hname hf hcalls⟩
        | true =>
          cases htext : f.definitionText? library with
          | none => exact ⟨ps, q, false, .outOfRange hname hf hcalls htext⟩
          | some text =>
            have hmarks : left (fs.map (·.name)) q ≤ left (fs.map (·.name)) p :=
              left_mono (List.subset_of_cons_subset hcalls.kept)
            obtain ⟨ps', r, ok, hnames⟩ := ih q (hmarks.trans hroom)
            exact ⟨_, r, ok, .copy hname hf hcalls htext hnames⟩

namespace Emitter

/-- The emitter after pieces have been copied. -/
def extended (e : Emitter) (ps : List Piece) (pasted : List String) : Emitter :=
  { e with definitions := e.definitions ++ ps, pasted }

theorem extended_self (e : Emitter) : e.extended [] e.pasted = e := by
  rw [extended, List.append_nil]

variable {e : Emitter}

/-- The turn of a known function: what it calls, and then its text. -/
theorem pasteWithin_finishes {name : String} {f : Function} {d : Nat} (hname : name ∉ e.pasted)
    (hf : find? e.functions name = some f) {e' : Emitter}
    (h : (do
      Action.each (pasteWithin library d) (f.calls.filter fun called =>
        (find? e.functions called).isSome)
      copy library f).Finishes { e with pasted := name :: e.pasted } ok e') :
    (pasteWithin library (d + 1) name).Finishes e ok e' := by
  obtain ⟨hresult, hstate⟩ := @run_pasteWithin_known library name e d f hname hf
  cases ok with
  | true => exact ⟨hresult.trans h.1, hstate.trans h.2⟩
  | false =>
    obtain ⟨err, herror, hleft⟩ := h
    exact ⟨err, hresult.trans herror, hstate.trans hleft⟩

theorem copy_stops {f : Function} (h : f.definitionText? library = none) :
    (copy library f).Stops e e := by
  rw [copy, h]
  exact .fail _ e

theorem copy_returns {f : Function} {text : String} (h : f.definitionText? library = some text) :
    (copy library f).Returns e ()
    { e with definitions := e.definitions ++ [Piece.definition f.name text] } := by
  rw [copy, h]
  exact .update _ e

/-- **Pasting** does what `Copies` says, if there is room. -/
theorem each_pasteWithin_finishes (h : Copies fs library p names ps q ok) :
    ∀ {e : Emitter} {d : Nat}, e.functions = fs → e.pasted = p → left (fs.map (·.name)) p ≤ d →
      (Action.each (pasteWithin library d) names).Finishes e ok (e.extended ps q) := by
  induction h with
  | nil =>
    rintro e d - rfl -
    rw [extended_self]
    exact Returns.each_nil _ e
  | skip hname _ ih =>
    rintro e d rfl rfl hroom
    exact (pasteWithin_pasted hname d).finishes (ih rfl rfl hroom)
  | unknown hname hunknown =>
    rintro e d rfl rfl -
    rw [extended_self]
    exact Stops.bind ⟨_, pasteWithin_unknown hname hunknown d⟩ _
  | @stuck p names q name f ps hname hf _ ih =>
    rintro e d rfl rfl hroom
    obtain ⟨k, rfl, hroom'⟩ := exists_room hf hname hroom
    have hcalls := ih (e := { e with pasted := name :: e.pasted }) rfl rfl hroom'
    have hturn : (pasteWithin library (k + 1) name).Finishes e false (e.extended ps q) :=
      pasteWithin_finishes hname hf (Stops.bind hcalls _)
    exact Stops.bind hturn _
  | @outOfRange p names q name f ps hname hf _ htext ih =>
    rintro e d rfl rfl hroom
    obtain ⟨k, rfl, hroom'⟩ := exists_room hf hname hroom
    have hcalls := ih (e := { e with pasted := name :: e.pasted }) rfl rfl hroom'
    have hturn : (pasteWithin library (k + 1) name).Finishes e false (e.extended ps q) :=
      pasteWithin_finishes hname hf (Returns.stops hcalls (copy_stops htext))
    exact Stops.bind hturn _
  | @copy p names q r name text f ps ps' ok hname hf hcopies htext _ ihcalls ihnames =>
    rintro e d rfl rfl hroom
    obtain ⟨k, rfl, hroom'⟩ := exists_room hf hname hroom
    have hcalls := ihcalls (e := { e with pasted := name :: e.pasted }) rfl rfl hroom'
    have hturn : (pasteWithin library (k + 1) name).Finishes e true
        (e.extended (ps ++ [Piece.definition name text]) q) := by
      have hcopied : e.extended (ps ++ [Piece.definition name text]) q =
          { { e with pasted := name :: e.pasted }.extended ps q with
            definitions := e.definitions ++ ps ++ [Piece.definition f.name text] } := by
        rw [name_of_find? hf, List.append_assoc]
        rfl
      rw [hcopied]
      exact pasteWithin_finishes hname hf (Returns.bind hcalls (copy_returns htext))
    -- marks are never taken away, so there is still room for the other names
    have hmarks : left (e.functions.map (·.name)) q ≤ left (e.functions.map (·.name)) e.pasted :=
      left_mono (List.subset_of_cons_subset hcopies.kept)
    have hnames :=
      ihnames (e := e.extended (ps ++ [Piece.definition name text]) q) (d := k + 1) rfl rfl
      (hmarks.trans hroom)
    have hsame : e.extended (ps ++ Piece.definition name text :: ps') r =
        (e.extended (ps ++ [Piece.definition name text]) q).extended ps' r := by
      simp [extended]
    rw [hsame]
    exact Returns.finishes hturn hnames

theorem paste_finishes {name : String} {e : Emitter}
    (h : Copies e.functions library e.pasted [name] ps q ok) :
    (paste name library).Finishes e ok (e.extended ps q) := by
  have hroom : left (e.functions.map (·.name)) e.pasted ≤ e.functions.length :=
    (left_le_length _ _).trans_eq (List.length_map _)
  exact (Returns.state e).finishes
    (finishes_of_each_singleton (each_pasteWithin_finishes h rfl rfl hroom))

/-! ## Steps -/

/-- Operations that concern uniforms and lines only. -/
inductive Statement
  | uniform (kind : Kind) (name : String) (slot : Nat)
  | flag (name : String)
  | declare (kind : Kind) (name : String)
  | append (line : Line)
  | convert (source target : Kind) (text : String)

namespace Statement

def action : Statement → Action Emitter CodeError Unit
  | .uniform kind name slot => declareUniform kind name slot
  | .flag name => declareFlag name
  | .declare kind name => declareVariable kind name
  | .append line => Emitter.append line
  | .convert source target text => appendConverted source target text

/-- The lines that are written at the innermost place; an operation that fails writes none. -/
def lines : Statement → List Line
  | .uniform .. => []
  | .flag _ => []
  | .declare kind name => if kind.held.isNumeric then [.declare kind.held name] else []
  | .append line => [line]
  | .convert source target text =>
    ((Conversion.between source target).toOption.map fun c => .text (c.text text)).toList

def uniforms : Statement → List UniformDecl
  | .uniform kind name slot =>
    if kind = .image then [.image name slot]
    else if kind.isNumeric then [.member name kind.typeName]
    else []
  | .flag name => [.member name "int"]
  | .declare .. => []
  | .append _ => []
  | .convert .. => []

end Statement

/-- The operations of the emitter. -/
inductive Step
  | statement (s : Statement)
  | paste (name library : String)
  | load (library : String)
  | openBlock (signature : Option String)
  | closeBlock (target : Section)

namespace Step

def action : Step → Action Emitter CodeError Unit
  | .statement s => s.action
  | .paste name library => Emitter.paste name library
  | .load library => Emitter.load library
  | .openBlock signature => Emitter.openBlock signature
  | .closeBlock target => Emitter.closeBlock target

def uniforms : Step → List UniformDecl
  | .statement s => s.uniforms
  | .paste .. => []
  | .load _ => []
  | .openBlock _ => []
  | .closeBlock _ => []

end Step

/-- One operation after another, whether or not they succeed. -/
def run (steps : List Step) (e : Emitter) : Emitter :=
  steps.foldl (fun e step => (step.action.run e).state) e

theorem run_cons (step : Step) (steps : List Step) (e : Emitter) :
    run (step :: steps) e = run steps (step.action.run e).state := rfl

theorem run_append (steps more : List Step) (e : Emitter) :
    run (steps ++ more) e = run more (run steps e) := List.foldl_append

/-- Every block that is opened is closed, into the definitions, and no others are. -/
inductive Bracketed : List Step → Prop
  | nil : Bracketed []
  | statement (s : Statement) {rest : List Step} (h : Bracketed rest) :
    Bracketed (.statement s :: rest)
  | paste (name library : String) {rest : List Step} (h : Bracketed rest) :
    Bracketed (.paste name library :: rest)
  | load (library : String) {rest : List Step} (h : Bracketed rest) :
    Bracketed (.load library :: rest)
  | block (signature : Option String) {inner rest : List Step} (hinner : Bracketed inner)
    (hrest : Bracketed rest) :
    Bracketed (.openBlock signature :: (inner ++ Step.closeBlock .definitions :: rest))

/-! ## What is written -/

/-- What pasting depends on. -/
structure Table where
  functions : List Function
  pasted : List String

def table (e : Emitter) : Table := ⟨e.functions, e.pasted⟩

/-- What bracketed steps write: the lines at the place where they start, and the pieces that they
send to the definitions. A block comes after the pieces that were finished while it was open. -/
inductive Writes : Table → List Step → List Line → List Piece → Table → Prop
  | nil {t : Table} : Writes t [] [] [] t
  | statement {t t' : Table} {s : Statement} {rest : List Step} {ls : List Line} {ps : List Piece}
    (h : Writes t rest ls ps t') : Writes t (.statement s :: rest) (s.lines ++ ls) ps t'
  | paste {t t' : Table} {name library : String} {copies : List Piece} {marks : List String}
    {ok : Bool}
    {rest : List Step} {ls : List Line} {ps : List Piece}
    (hcopies : Copies t.functions library t.pasted [name] copies marks ok)
    (h : Writes { t with pasted := marks } rest ls ps t') :
    Writes t (.paste name library :: rest) ls (copies ++ ps) t'
  | load {t t' : Table} {library : String} {rest : List Step} {ls : List Line} {ps : List Piece}
    (h : Writes { t with functions := functionsIn library } rest ls ps t') :
    Writes t (.load library :: rest) ls ps t'
  | block {t t' t'' : Table} {signature : Option String} {inner rest : List Step}
    {ls ls' : List Line} {ps ps' : List Piece} (hinner : Writes t inner ls ps t')
    (hrest : Writes t' rest ls' ps' t'') :
    Writes t (.openBlock signature :: (inner ++ Step.closeBlock .definitions :: rest)) ls'
      (ps ++ Piece.block signature ls :: ps') t''

theorem Bracketed.exists_writes {steps : List Step} (h : Bracketed steps) :
    ∀ t, ∃ ls ps t', Writes t steps ls ps t' := by
  induction h with
  | nil => exact fun t => ⟨[], [], t, .nil⟩
  | statement s _ ih =>
    intro t
    obtain ⟨ls, ps, t', h⟩ := ih t
    exact ⟨_, _, _, .statement h⟩
  | paste name library _ ih =>
    intro t
    obtain ⟨copies, marks, ok, hcopies⟩ :=
      exists_copies t.functions library _ t.pasted [name] le_rfl
    obtain ⟨ls, ps, t', h⟩ := ih { t with pasted := marks }
    exact ⟨_, _, _, .paste hcopies h⟩
  | load library _ ih =>
    intro t
    obtain ⟨ls, ps, t', h⟩ := ih { t with functions := functionsIn library }
    exact ⟨_, _, _, .load h⟩
  | block signature _ _ ihinner ihrest =>
    intro t
    obtain ⟨ls, ps, t', hinner⟩ := ihinner t
    obtain ⟨ls', ps', t'', hrest⟩ := ihrest t'
    exact ⟨_, _, _, .block hinner hrest⟩

/-- The emitter after uniforms, lines and pieces have been added. -/
def grown (e : Emitter) (us : List UniformDecl) (ls : List Line) (ps : List Piece) (t : Table) :
    Emitter :=
  { e.written ls with
    uniforms := e.uniforms ++ us
    definitions := e.definitions ++ ps
    functions := t.functions
    pasted := t.pasted }

theorem grown_uniforms (e : Emitter) (us : List UniformDecl) :
    e.grown us [] [] e.table = { e with uniforms := e.uniforms ++ us } := by
  rw [grown, written_nil, List.append_nil]
  rfl

theorem grown_nil (e : Emitter) : e.grown [] [] [] e.table = e := by
  rw [grown_uniforms, List.append_nil]

theorem table_grown (e : Emitter) (us : List UniformDecl) (ls : List Line) (ps : List Piece)
    (t : Table) : (e.grown us ls ps t).table = t := rfl

theorem grown_grown (e : Emitter) (us us' : List UniformDecl) (ls ls' : List Line)
    (ps ps' : List Piece) (t t' : Table) :
    (e.grown us ls ps t).grown us' ls' ps' t' = e.grown (us ++ us') (ls ++ ls') (ps ++ ps') t' := by
  cases e with
  | mk uniforms definitions body blocks functions pasted =>
    cases blocks with
    | nil => simp [grown, written]
    | cons block outer => simp [grown, written]

theorem grown_lines (e : Emitter) (ls : List Line) : e.grown [] ls [] e.table = e.written ls := by
  cases e with
  | mk uniforms definitions body blocks functions pasted =>
    cases blocks with
    | nil => simp [grown, written, table]
    | cons block outer => simp [grown, written, table]

/-- **Statements.** -/
theorem Statement.state_action (s : Statement) (e : Emitter) :
    (s.action.run e).state = e.grown s.uniforms s.lines [] e.table := by
  cases s with
  | uniform kind name slot =>
    show ((declareUniform kind name slot).run e).state = e.grown _ [] [] e.table
    rw [grown_uniforms]
    cases kind with
    | none =>
      show e = { e with uniforms := e.uniforms ++ [] }
      rw [List.append_nil]
    | _ => rfl
  | flag name =>
    show ((declareFlag name).run e).state = e.grown _ [] [] e.table
    rw [grown_uniforms]
    rfl
  | declare kind name =>
    show ((declareVariable kind name).run e).state = e.grown [] _ [] e.table
    rw [grown_lines, declareVariable, Statement.lines]
    split_ifs
    · exact (append_returns _ e).2
    · exact (written_nil e).symm
  | append line =>
    show ((Emitter.append line).run e).state = e.grown [] _ [] e.table
    rw [grown_lines]
    exact (append_returns line e).2
  | convert source target text =>
    show ((appendConverted source target text).run e).state = e.grown [] _ [] e.table
    rw [grown_lines, Statement.lines]
    cases hbetween : Conversion.between source target with
    | error err =>
      -- nothing is appended, so nothing is written
      have hfails : ((Action.ofExcept (Conversion.between source target) :
          Action Emitter CodeError Conversion).run e).result = .error err := hbetween
      rw [appendConverted, state_bind_of_error hfails]
      exact (written_nil e).symm
    | ok conversion => exact ((Returns.ofExcept hbetween e).bind (append_returns _ e)).2

/-- A block is closed that has been opened, with lines in it. -/
theorem run_block {signature : Option String} {inner : List Step} {us : List UniformDecl}
    {ls : List Line} {ps : List Piece} {t : Table} {e : Emitter}
    (h : run inner { e with blocks := ⟨signature, []⟩ :: e.blocks } =
      grown { e with blocks := ⟨signature, []⟩ :: e.blocks } us ls ps t) :
    (closeBlock .definitions).Returns (run (.openBlock signature :: inner) e) ()
      (e.grown us [] (ps ++ [Piece.block signature ls]) t) := by
  have hopen : run (.openBlock signature :: inner) e =
      grown { e with blocks := ⟨signature, []⟩ :: e.blocks } us ls ps t := h
  have hblocks : (run (.openBlock signature :: inner) e).blocks = ⟨signature, ls⟩ :: e.blocks := by
    rw [hopen]
    rfl
  have hclosed : { run (.openBlock signature :: inner) e with
      blocks := e.blocks
      definitions :=
        (run (.openBlock signature :: inner) e).definitions ++ [Piece.block signature ls] } =
      e.grown us [] (ps ++ [Piece.block signature ls]) t := by
    rw [hopen, grown, grown, written_nil, ← List.append_assoc]
    rfl
  rw [← hclosed]
  exact closeBlock_returns hblocks

/-- **Bracketed steps** do what `Writes` says, and nothing else. -/
theorem run_writes {steps : List Step} {t t' : Table} {ls : List Line} {ps : List Piece}
    (h : Writes t steps ls ps t') :
    ∀ e : Emitter, e.table = t → run steps e = e.grown (steps.flatMap Step.uniforms) ls ps t' := by
  induction h with
  | nil =>
    rintro e rfl
    exact (grown_nil e).symm
  | @statement t t' s rest ls ps _ ih =>
    rintro e rfl
    have hstate : ((Step.statement s).action.run e).state = e.grown s.uniforms s.lines [] e.table :=
      s.state_action e
    rw [run_cons, hstate, ih _ (table_grown ..), grown_grown]
    rfl
  | @paste t t' name library copies marks ok rest ls ps hcopies _ ih =>
    rintro e rfl
    have hstate : ((Step.paste name library).action.run e).state =
        e.grown [] [] copies { e.table with pasted := marks } := by
      rw [grown, written_nil, List.append_nil]
      exact (paste_finishes hcopies).state_eq
    rw [run_cons, hstate, ih _ (table_grown ..), grown_grown]
    rfl
  | @load t t' library rest ls ps _ ih =>
    rintro e rfl
    have hstate : ((Step.load library).action.run e).state =
        e.grown [] [] [] { e.table with functions := functionsIn library } := by
      rw [grown, written_nil, List.append_nil, List.append_nil]
      exact (load_returns library e).2
    rw [run_cons, hstate, ih _ (table_grown ..), grown_grown]
    rfl
  | @block t t' t'' signature inner rest ls ls' ps ps' _ _ ihinner ihrest =>
    rintro e rfl
    -- what is written inside goes to the new block, and leaves with it
    have hclose := run_block (ihinner { e with blocks := ⟨signature, []⟩ :: e.blocks } rfl)
    have hstate : ((Step.closeBlock .definitions).action.run
        (run (.openBlock signature :: inner) e)).state = _ := hclose.2
    rw [← List.cons_append, run_append, run_cons, hstate, ihrest _ (table_grown ..), grown_grown]
    simp [Step.uniforms]

/-- There is only one thing to write. -/
theorem Writes.unique {steps : List Step} {t t' t'' : Table} {ls ls' : List Line}
    {ps ps' : List Piece} (h : Writes t steps ls ps t') (h' : Writes t steps ls' ps' t'') :
    ls' = ls ∧ ps' = ps ∧ t'' = t' := by
  -- an emitter with an open block shows all of it
  let e : Emitter := { blocks := [⟨none, []⟩], functions := t.functions, pasted := t.pasted }
  have hsame := (run_writes h' e rfl).symm.trans (run_writes h e rfl)
  have hlines : [Block.mk none ls'] = [Block.mk none ls] := congrArg Emitter.blocks hsame
  have hpieces : ps' = ps := congrArg Emitter.definitions hsame
  have htable : t'' = t' := congrArg Emitter.table hsame
  exact ⟨congrArg Block.lines (List.head_eq_of_cons_eq hlines), hpieces, htable⟩

/-- **Nested blocks do not disturb what is around them.** Between its opening and its closing, a
function block may hold any bracketed steps. What they write is determined by the functions at hand
and those that have been copied. Afterwards the body and the open blocks are as before; the
definitions have grown by the pieces that were finished inside, and then by the function with the
lines that were written to its own block. -/
theorem run_function (e : Emitter) (signature : String) (inner : List Step) (h : Bracketed inner) :
    ∃ (lines : List Line) (pieces : List Piece) (table : Table),
      (∀ ls ps t, Writes e.table inner ls ps t ↔ ls = lines ∧ ps = pieces ∧ t = table) ∧
      let inside := run (.openBlock (some signature) :: inner) e
      let e' := run (.openBlock (some signature) :: (inner ++ [Step.closeBlock .definitions])) e
      (closeBlock .definitions).Returns inside () e' ∧
      e'.body = e.body ∧ e'.blocks = e.blocks ∧ e'.depth = e.depth ∧ e'.table = table ∧
      e'.uniforms = e.uniforms ++ inner.flatMap Step.uniforms ∧
      e'.definitions = e.definitions ++ pieces ++ [Piece.block (some signature) lines] ∧
      e'.bodyText = e.bodyText ∧
      e'.definitionsText = e.definitionsText ++ renderPieces pieces ++
        (signature ++ " \x7b\n" ++ renderLines lines ++ "\x7d\n\n") := by
  obtain ⟨lines, pieces, table, hwrites⟩ := h.exists_writes e.table
  have hclose := run_block
    (run_writes hwrites { e with blocks := ⟨some signature, []⟩ :: e.blocks } rfl)
  have hrun : run (.openBlock (some signature) :: (inner ++ [Step.closeBlock .definitions])) e =
      e.grown (inner.flatMap Step.uniforms) []
        (pieces ++ [Piece.block (some signature) lines]) table := by
    rw [← List.cons_append, run_append]
    exact hclose.2
  refine ⟨lines, pieces, table, fun ls ps t => ⟨fun h' => hwrites.unique h', ?_⟩, ?_⟩
  · rintro ⟨rfl, rfl, rfl⟩
    exact hwrites
  · intro inside e'
    have he' : e' = e.grown (inner.flatMap Step.uniforms) []
        (pieces ++ [Piece.block (some signature) lines]) table := hrun
    have hdefinitions :
        e'.definitions = e.definitions ++ pieces ++ [Piece.block (some signature) lines] := by
      rw [he', List.append_assoc]
      rfl
    -- all lines went to the block, so none was written around it
    have hbody : e'.body = e.body ∧ e'.blocks = e.blocks := by
      rw [he', grown, written_nil]
      exact ⟨rfl, rfl⟩
    refine ⟨he' ▸ hclose, hbody.1, hbody.2, congrArg List.length hbody.2, ?_, ?_, hdefinitions,
      congrArg renderPieces hbody.1, ?_⟩
    · rw [he', table_grown]
    · rw [he']
      rfl
    · rw [definitionsText, hdefinitions, renderPieces_append, renderPieces_append]
      simp [definitionsText, renderPieces, Piece.render]

/-! ## A function with blocks inside -/

/-- Loose code that is interrupted by a function, and by a name that nobody knows. -/
def looseSteps : List Step :=
  [.statement (.append (.text "\ttmp = vec4(1.0);\n")), .openBlock (some "float deep()"),
    .statement (.append (.text "\treturn 1.0;\n")), .closeBlock .definitions, .paste "h" pairText]

/-- A variable, a function that stops halfway through being pasted, the loose code as a block, a
conversion that does not exist, and the result. -/
def helperSteps : List Step :=
  .statement (.declare .image "tmp") :: .paste "f" shortText :: .openBlock none ::
    (looseSteps ++ Step.closeBlock .definitions ::
      [.statement (.convert .none .vec4 "tmp"), .statement (.append (.text "\treturn tmp;\n"))])

/-- In the middle of a function, with code in the body. -/
def interrupted : Emitter :=
  { paired with
    body := [.line (.text "\tfloat outer;\n")]
    blocks := [⟨some "void around()", [.text "\tint k;\n"]⟩] }

theorem run_helper :
    let e' := run (.openBlock (some "vec4 helper(vec2 cUV)") ::
      (helperSteps ++ [Step.closeBlock .definitions])) interrupted
    Bracketed helperSteps ∧ e'.body = interrupted.body ∧ e'.blocks = interrupted.blocks ∧
      (∃ lines pieces, e'.definitions = interrupted.definitions ++ pieces ++
        [.block (some "vec4 helper(vec2 cUV)") lines]) ∧
      e'.definitionsText = "void g()\x7b\x7d\n\nfloat deep() \x7b\n\treturn 1.0;\n\x7d\n\n" ++
        "\ttmp = vec4(1.0);\nvec4 helper(vec2 cUV) \x7b\n\tvec4 tmp;\n\treturn tmp;\n\x7d\n\n" := by
  have hloose : Bracketed looseSteps :=
    .statement _ (@Bracketed.block _ [_] [_] (.statement _ .nil) (.paste _ _ .nil))
  have hhelper : Bracketed helperSteps :=
    .statement _ (.paste _ _ (.block _ hloose (.statement _ (.statement _ .nil))))
  obtain ⟨lines, pieces, _, -, -, hbody, hblocks, -, -, -, hdefinitions, -⟩ :=
    run_function interrupted "vec4 helper(vec2 cUV)" helperSteps hhelper
  exact ⟨hhelper, hbody, hblocks, ⟨lines, pieces, hdefinitions⟩, by decide +kernel⟩

end Emitter

end Glsl
end Texel
