import Texel.Builtin
import Texel.Proofs.Glsl.Library

/-!
# Texel — what the built-in libraries hold

Every built-in library is read once, here: `headings` is the table of its functions, and
`library_reads` proves that scanning the text gives this table, that the text can be put before
another one, and that each definition has a text of its own. Everything else about the texts follows
from the table.
-/

namespace Texel.Glsl

open Text

/-! ## Reading a text once -/

/-- The functions in a text given by its characters. -/
def functionsOf (cs : List Char) : List Function :=
  ((Lexer.run {} cs).finish.foldl Reader.step {}).found.reverse

def sliceOf? (cs : List Char) (span : Span) : Option (List Char) :=
  if span.start ≤ span.stop then
    (dropBytes? span.start cs).bind (takeBytes? (span.stop - span.start))
  else none

/-- Does the text hold these functions, each with a text of its own, and nothing unfinished? -/
def reads (cs : List Char) (headings : List Heading) : Bool :=
  let l := Lexer.run {} cs
  let r := l.finish.foldl Reader.step {}
  l.mode = .code && l.fresh && r.stage = .outside && r.found.reverse.map (·.heading) = headings &&
    r.found.reverse.all fun f => (sliceOf? cs f.definition).isSome

theorem slice?_eq_sliceOf? (s : String) (span : Span) :
    slice? s span = (sliceOf? s.toList span).map String.ofList := by
  unfold slice? sliceOf?
  split_ifs
  · cases dropBytes? span.start s.toList with
    | none => rfl
    | some rest => exact (Option.map_eq_bind).symm
  · rfl

/-- What a library holds, as far as programs are concerned. -/
structure Holds (library : String) (headings : List Heading) : Prop extends Complete library where
  headings : (entries library).map (·.toHeading) = headings

theorem map_toHeading_entries {library : String}
    (h : ∀ f ∈ functionsIn library, (f.definitionText? library).isSome) :
    (entries library).map (·.toHeading) = (functionsIn library).map (·.heading) := by
  rw [entries, List.map_filterMap, ← List.filterMap_eq_map]
  refine List.filterMap_congr fun f hf => ?_
  obtain ⟨text, htext⟩ := Option.isSome_iff_exists.mp (h f hf)
  rw [Function.entryIn?, htext]
  rfl

theorem Holds.of_reads {library : String} {headings : List Heading}
    (h : reads library.toList headings = true) : Holds library headings := by
  simp only [reads, Bool.and_eq_true, decide_eq_true_eq, List.all_eq_true] at h
  obtain ⟨⟨⟨⟨hmode, hfresh⟩, houtside⟩, hheadings⟩, hall⟩ := h
  have hsome : ∀ f ∈ functionsIn library, (f.definitionText? library).isSome := by
    intro f hf
    rw [Function.definitionText?, slice?_eq_sliceOf?, Option.isSome_map]
    exact hall f hf
  exact ⟨⟨⟨hmode, hfresh, houtside⟩, hsome⟩, (map_toHeading_entries hsome).trans hheadings⟩

theorem holds_empty : Holds "" [] := .of_reads rfl

theorem holds_newline : Holds "\n" [] := .of_reads (by decide +kernel)

/-- The characters of a text given by its lines. -/
theorem toList_ofLines (lines : List String) :
    (Text.ofLines lines).toList = lines.flatMap fun line => line.toList ++ ['\n'] := by
  induction lines with
  | nil => rfl
  | cons line lines ih =>
    rw [Text.ofLines] at ih ⊢
    simp [ih]

end Texel.Glsl

namespace Texel.Builtin

open Glsl

/-! ## The built-in libraries -/

/-- A parameter that is written with nothing but a qualifier and its type. -/
def parameter (qualifier : Qualifier) (kind : Kind) : Parameter := ⟨kind, qualifier, kind.typeName⟩

/-- The parameters of the function of an operator. -/
def signature : Builtin → List (String × Parameter)
  | .color => [("color", parameter .input .vec4), ("result", parameter .output .vec4)]
  | .linearGradient =>
    [("uv", parameter .input .vec2), ("angle", parameter .input .scalar),
      ("color_a", parameter .input .vec4), ("color_b", parameter .input .vec4),
      ("result", parameter .output .vec4)]
  | .mix =>
    [("a", parameter .input .vec4), ("b", parameter .input .vec4),
      ("factor", parameter .input .scalar), ("result", parameter .output .vec4)]
  | .blend =>
    [("base", parameter .input .vec4), ("layer", parameter .input .vec4),
      ("mode", parameter .input .scalar), ("opacity", parameter .input .scalar),
      ("result", parameter .output .vec4)]
  | .valueNoise =>
    [("uv", parameter .input .vec2), ("scale", parameter .input .scalar),
      ("seed", parameter .input .scalar), ("result", parameter .output .scalar)]
  | .imageInput => [("pixel", parameter .input .vec4), ("result", parameter .output .vec4)]
  | .uvTransform =>
    [("uv", parameter .input .vec2), ("offset", parameter .input .vec2),
      ("scale", parameter .input .vec2), ("rotation", parameter .input .scalar),
      ("result", parameter .output .vec2)]
  | .heightGradient =>
    [("uv", parameter .input .vec2), ("strength", parameter .input .scalar),
      ("step_size", parameter .input .scalar), ("result", parameter .output .vec2)]
  | .output => [("color", parameter .input .vec4), ("result", parameter .output .vec4)]

/-- The functions that the function of an operator needs, and what they call. -/
def helpers : Builtin → List Heading
  | .blend =>
    let colors := [("a", parameter .none .vec3), ("b", parameter .none .vec3)]
    [⟨"blend_multiply", colors, []⟩, ⟨"blend_screen", colors, []⟩,
      ⟨"blend_rgb", colors ++ [("mode", parameter .none .scalar)],
        ["blend_multiply", "blend_screen", "min", "abs"]⟩]
  | .valueNoise =>
    let point := [("p", parameter .none .vec2), ("seed", parameter .none .scalar)]
    [⟨"hash21", point, ["fract", "dot"]⟩,
      ⟨"value_noise_at", point, ["floor", "fract", "hash21", "mix"]⟩]
  | _ => []

/-- What the function of an operator calls. -/
def calls : Builtin → List String
  | .color | .imageInput | .output => []
  | .linearGradient => ["cos", "sin", "clamp", "dot", "mix"]
  | .mix => ["mix", "clamp"]
  | .blend => ["blend_rgb", "clamp", "mix"]
  | .valueNoise => ["value_noise_at"]
  | .uvTransform => ["cos", "sin"]
  | .heightGradient => ["max", "rgb_to_float", "subtree"]

/-- The functions of the library of an operator, in the order of their definition. -/
def headings (b : Builtin) : List Heading :=
  b.helpers ++ [⟨b.operator.function, b.signature, b.calls⟩]

/-- **Reading the libraries.** Scanning finds the functions of the table. -/
theorem library_reads (b : Builtin) : reads b.operator.library.toList b.headings = true := by
  cases b
  all_goals
    simp only [operator, Source.color, Source.linearGradient, Source.mix, Source.blend,
      Source.valueNoise, Source.imageInput, Source.uvTransform, Source.heightGradient,
      Source.output, toList_ofLines, List.flatMap_cons, List.flatMap_nil]
    -- each line becomes its characters before anything is computed
    repeat rw [String.toList_ofList]
    decide +kernel

theorem library_holds (b : Builtin) : Holds b.operator.library b.headings :=
  .of_reads b.library_reads

end Texel.Builtin
