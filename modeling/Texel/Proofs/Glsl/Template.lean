import Texel.Proofs.Builtin.Library
import Texel.Glsl.Template
import Mathlib.Data.List.Infix

/-!
# Texel — the sections of a program in their places

The three sections of a program replace the markers of the template one after the other, and each
time the whole text is searched from its start. So a marker that an earlier section brings along is
found before the template's own one. All that happens is decided line by line, because no marker
holds an end of line: nothing that a section brings along can complete a marker with the lines
around it.

* **`replaceFirst_line`** — one line: either the marker is in it, or the search goes on behind it.
* **`IsMarker.substitute_first`**, **`substitute_second`**, **`substitute_third`** — a text with
  three sections: the marker is looked for in one section after the other.
* **`assemble_eq`** — all that may become of three sections.
* **`assemble_eq_filled`** — sections without the markers of later ones stand in their places.
-/

namespace Texel.Glsl

/-! ## Replacing within a line -/

section Replacing

variable {marker : List Char} (replacement : List Char)

/-- What holds no end of line ends before the next one. -/
theorem prefix_line_iff (hline : '\n' ∉ marker) {x y : List Char} :
    marker <+: x ++ '\n' :: y ↔ marker <+: x := by
  constructor
  · intro h
    have hend : x ++ ['\n'] <+: x ++ '\n' :: y := ⟨y, by simp⟩
    -- a marker that goes on to the end of the line would hold it
    rcases List.prefix_or_prefix_of_prefix h hend with hshort | hlong
    · rcases List.prefix_concat_iff.mp hshort with rfl | hstart
      · exact absurd (by simp) hline
      · exact hstart
    · exact absurd (hlong.subset (by simp)) hline
  · exact fun h => h.trans (List.prefix_append x _)

theorem replaceFirst_marker (hne : marker ≠ []) (y : List Char) :
    replaceFirst marker replacement (marker ++ y) = replacement ++ y := by
  cases marker with
  | nil => exact absurd rfl hne
  | cons c cs =>
    have hstart : (c :: cs).isPrefixOf (c :: (cs ++ y)) = true :=
      List.isPrefixOf_iff_prefix.mpr (List.prefix_append (c :: cs) y)
    rw [List.cons_append, replaceFirst, if_pos hstart]
    exact congrArg (replacement ++ ·) ((List.drop_left : (c :: cs ++ y).drop (c :: cs).length = y))

/-- **One line.** Either the marker is in it, or the search goes on behind it. -/
theorem replaceFirst_line (hne : marker ≠ []) (hline : '\n' ∉ marker) (x y : List Char) :
    replaceFirst marker replacement (x ++ '\n' :: y) =
      if marker <:+: x then replaceFirst marker replacement x ++ '\n' :: y
      else x ++ '\n' :: replaceFirst marker replacement y := by
  -- the search goes through the line character by character
  induction x with
  | nil =>
    have hstart : ¬ marker.isPrefixOf ('\n' :: y) = true := by
      rw [List.isPrefixOf_iff_prefix, ← List.nil_append ('\n' :: y), prefix_line_iff hline]
      exact fun h => hne (List.prefix_nil.mp h)
    rw [if_neg fun h => hne (List.infix_nil.mp h), List.nil_append, List.nil_append, replaceFirst,
      if_neg hstart]
  | cons c x ih =>
    have hstart : marker.isPrefixOf (c :: (x ++ '\n' :: y)) = marker.isPrefixOf (c :: x) := by
      rw [Bool.eq_iff_iff, List.isPrefixOf_iff_prefix, List.isPrefixOf_iff_prefix]
      exact prefix_line_iff (x := c :: x) hline
    rw [List.cons_append, replaceFirst, replaceFirst, hstart]
    -- the marker starts here, or it is searched for from the next character on
    by_cases h : marker.isPrefixOf (c :: x) = true
    · have hmarker : marker <+: c :: x := List.isPrefixOf_iff_prefix.mp h
      rw [if_pos h, if_pos h, if_pos hmarker.isInfix, ← List.cons_append,
        List.drop_append_of_le_length hmarker.length_le, List.append_assoc]
    · have hinside : marker <:+: c :: x ↔ marker <:+: x := by
        rw [List.infix_cons_iff, or_iff_right (mt List.isPrefixOf_iff_prefix.mpr h)]
      rw [if_neg h, if_neg h, ih]
      simp only [hinside]
      split_ifs
      · rfl
      · rfl

/-- Lines without the marker are passed over. -/
theorem replaceFirst_ofLines (hne : marker ≠ []) (hline : '\n' ∉ marker) {lines : List String}
    (hlines : ∀ line ∈ lines, ¬ marker <:+: line.toList) (y : List Char) :
    replaceFirst marker replacement ((Text.ofLines lines).toList ++ y) =
      (Text.ofLines lines).toList ++ replaceFirst marker replacement y := by
  rw [toList_ofLines]
  induction lines with
  | nil => rfl
  | cons line lines ih =>
    obtain ⟨hhead, htail⟩ := List.forall_mem_cons.mp hlines
    have hsplit : ∀ z, (line :: lines).flatMap (fun line => line.toList ++ ['\n']) ++ z =
        line.toList ++ '\n' :: (lines.flatMap (fun line => line.toList ++ ['\n']) ++ z) := by
      simp
    rw [hsplit, replaceFirst_line replacement hne hline, if_neg hhead, ih htail, hsplit]

end Replacing

/-! ## The template in parts -/

/-- The lines before the first section. -/
def openingLines : List String :=
  ["#version 450",
    "layout(local_size_x = 16, local_size_y = 16, local_size_z = 1) in;",
    "",
    "layout(set = 0, binding = 0, rgba32f) writeonly uniform image2D uOutput;"]

/-- The lines between the first section and the second. -/
def helperLines : List String :=
  ["const float PI = 3.141592654;",
    "",
    "float rgb_to_float(vec3 color) \x7b",
    "    return color.x * 0.2126 + color.y * 0.7152 + color.z * 0.0722;",
    "\x7d",
    "",
    "float rgba_to_float(vec4 color) \x7b",
    "    return rgb_to_float(color.xyz) * color.w;",
    "\x7d",
    "",
    "ivec2 uv_to_texel(vec2 uv, ivec2 size) \x7b",
    "    return clamp(ivec2(floor(uv * vec2(size))), ivec2(0), size - ivec2(1));",
    "\x7d",
    ""]

/-- The lines between the second section and the third. -/
def entryLines : List String :=
  ["void main() \x7b",
    "    ivec2 cCoords = ivec2(gl_GlobalInvocationID.xy);",
    "    ivec2 cSize = imageSize(uOutput);",
    "    if (cCoords.x >= cSize.x || cCoords.y >= cSize.y) \x7b",
    "        return;",
    "    \x7d",
    "    vec2 cUV = (vec2(cCoords) + vec2(0.5)) / vec2(cSize);"]

/-- The text of a program with three sections in their places. -/
def filled (uniforms definitions body : String) : String :=
  Text.ofLines openingLines ++ uniforms ++
    ("\n" ++ Text.ofLines helperLines) ++ definitions ++
    ("\n" ++ Text.ofLines entryLines) ++ body ++ "\x7d\n"

/-- Stated for any texts, so that no literal is decoded. -/
theorem toList_around (opening uniforms helpers definitions entry body closing newline : String)
    (hnewline : newline.toList = ['\n']) :
    (opening ++ uniforms ++ (newline ++ helpers) ++ definitions ++ (newline ++ entry) ++ body ++
        closing).toList =
      opening.toList ++
        (uniforms.toList ++ '\n' :: (helpers.toList ++ (definitions.toList ++ '\n' ::
        (entry.toList ++ (body.toList ++ closing.toList))))) := by
  simp only [String.toList_append, hnewline, List.append_assoc, List.cons_append, List.nil_append]

theorem toList_filled (uniforms definitions body : String) :
    (filled uniforms definitions body).toList =
      (Text.ofLines openingLines).toList ++ (uniforms.toList ++ '\n' ::
        ((Text.ofLines helperLines).toList ++ (definitions.toList ++ '\n' ::
          ((Text.ofLines entryLines).toList ++ (body.toList ++ "\x7d\n".toList))))) := by
  rw [filled]
  exact toList_around _ _ _ _ _ _ _ _ String.toList_ofList

/-- The template is the text with its markers for sections. -/
theorem template_eq_filled : template = filled "<uniforms>" "<defs>" "<body>" := by
  have hlines : template = Text.ofLines (openingLines ++ "<uniforms>" :: (helperLines ++ "<defs>" ::
      (entryLines ++ ["<body>\x7d"]))) := by
    rw [template]
    exact congrArg Text.ofLines rfl
  have hlast : "<body>\x7d".toList ++ ['\n'] = "<body>".toList ++ "\x7d\n".toList := by
    repeat rw [String.toList_ofList]
    rfl
  rw [← String.toList_inj, hlines, toList_filled]
  simp only [toList_ofLines, List.flatMap_append, List.flatMap_cons, List.flatMap_nil, hlast,
    List.append_assoc, List.cons_append, List.nil_append, List.append_nil]

/-! ## One marker -/

/-- A text with the first occurrence of a marker replaced. -/
def substitute (marker replacement text : String) : String :=
  .ofList (replaceFirst marker.toList replacement.toList text.toList)

theorem toList_substitute (marker replacement text : String) :
    (substitute marker replacement text).toList =
      replaceFirst marker.toList replacement.toList text.toList :=
  String.toList_ofList

/-- A marker stands within a line, and an angle bracket tells it from the lines around the
sections. -/
structure IsMarker (marker : String) : Prop where
  bracket : '<' ∈ marker.toList
  inLine : '\n' ∉ marker.toList

theorem isMarker_uniforms : IsMarker "<uniforms>" := ⟨by decide, by decide⟩

theorem isMarker_defs : IsMarker "<defs>" := ⟨by decide, by decide⟩

theorem isMarker_body : IsMarker "<body>" := ⟨by decide, by decide⟩

theorem notMem_bracket :
    '<' ∉ (openingLines ++ helperLines ++ entryLines).flatMap String.toList := by
  simp only [openingLines, helperLines, entryLines, List.cons_append, List.nil_append,
    List.flatMap_cons, List.flatMap_nil]
  repeat rw [String.toList_ofList]
  decide +kernel

namespace IsMarker

variable {marker : String} (h : IsMarker marker) {uniforms definitions : String}
include h

theorem nonempty : marker.toList ≠ [] := List.ne_nil_of_mem h.bracket

theorem not_inside {line : String} (hline : line ∈ openingLines ++ helperLines ++ entryLines) :
    ¬ marker.toList <:+: line.toList :=
  fun hinside => notMem_bracket (List.mem_flatMap.mpr ⟨line, hline, hinside.subset h.bracket⟩)

theorem opening : ∀ line ∈ openingLines, ¬ marker.toList <:+: line.toList :=
  fun _ hline => h.not_inside (List.mem_append_left _ (List.mem_append_left _ hline))

theorem helper : ∀ line ∈ helperLines, ¬ marker.toList <:+: line.toList :=
  fun _ hline => h.not_inside (List.mem_append_left _ (List.mem_append_right _ hline))

theorem entry : ∀ line ∈ entryLines, ¬ marker.toList <:+: line.toList :=
  fun _ hline => h.not_inside (List.mem_append_right _ hline)

theorem substitute_self (replacement : String) :
    substitute marker replacement marker = replacement := by
  have hself := replaceFirst_marker replacement.toList h.nonempty []
  rw [List.append_nil, List.append_nil] at hself
  rw [substitute, hself, String.ofList_toList]

/-- A marker in the first section is found before all others. -/
theorem substitute_first (hfirst : marker.toList <:+: uniforms.toList)
    (replacement body : String) :
    substitute marker replacement (filled uniforms definitions body) =
      filled (substitute marker replacement uniforms) definitions body := by
  rw [← String.toList_inj, toList_substitute, toList_filled,
    replaceFirst_ofLines _ h.nonempty h.inLine h.opening,
    replaceFirst_line _ h.nonempty h.inLine, if_pos hfirst, toList_filled, toList_substitute]

/-- A marker in the second section is found if there is none in the first. -/
theorem substitute_second (hfirst : ¬ marker.toList <:+: uniforms.toList)
    (hsecond : marker.toList <:+: definitions.toList) (replacement body : String) :
    substitute marker replacement (filled uniforms definitions body) =
      filled uniforms (substitute marker replacement definitions) body := by
  rw [← String.toList_inj, toList_substitute, toList_filled,
    replaceFirst_ofLines _ h.nonempty h.inLine h.opening,
    replaceFirst_line _ h.nonempty h.inLine, if_neg hfirst,
    replaceFirst_ofLines _ h.nonempty h.inLine h.helper,
    replaceFirst_line _ h.nonempty h.inLine, if_pos hsecond, toList_filled, toList_substitute]

/-- A marker in the place of the third section is found if no section holds it. -/
theorem substitute_third (hfirst : ¬ marker.toList <:+: uniforms.toList)
    (hsecond : ¬ marker.toList <:+: definitions.toList) (replacement : String) :
    substitute marker replacement (filled uniforms definitions marker) =
      filled uniforms definitions replacement := by
  rw [← String.toList_inj, toList_substitute, toList_filled,
    replaceFirst_ofLines _ h.nonempty h.inLine h.opening,
    replaceFirst_line _ h.nonempty h.inLine, if_neg hfirst,
    replaceFirst_ofLines _ h.nonempty h.inLine h.helper,
    replaceFirst_line _ h.nonempty h.inLine, if_neg hsecond,
    replaceFirst_ofLines _ h.nonempty h.inLine h.entry,
    replaceFirst_marker _ h.nonempty, toList_filled]

end IsMarker

/-! ## All sections -/

theorem assemble_eq_substitute (uniforms definitions body : String) :
    assemble uniforms definitions body =
      substitute "<body>" body (substitute "<defs>" definitions
        (filled uniforms "<defs>" "<body>")) := by
  have hfirst : substitute "<uniforms>" uniforms template = filled uniforms "<defs>" "<body>" := by
    rw [template_eq_filled, isMarker_uniforms.substitute_first (List.infix_refl _),
      isMarker_uniforms.substitute_self]
  rw [← hfirst, ← String.toList_inj, toList_substitute, toList_substitute, toList_substitute]
  exact String.toList_ofList

/-- **All that may become of three sections.** The definitions go into the uniforms, or the body
into the uniforms or the definitions, if the marker is there; the marker of the template then
stays. -/
theorem assemble_eq (uniforms definitions body : String) :
    assemble uniforms definitions body =
      if "<defs>".toList <:+: uniforms.toList then
        substitute "<body>" body
          (filled (substitute "<defs>" definitions uniforms) "<defs>" "<body>")
      else if "<body>".toList <:+: uniforms.toList then
        filled (substitute "<body>" body uniforms) definitions "<body>"
      else if "<body>".toList <:+: definitions.toList then
        filled uniforms (substitute "<body>" body definitions) "<body>"
      else filled uniforms definitions body := by
  rw [assemble_eq_substitute]
  split_ifs with hdefs hfirst hsecond
  · rw [isMarker_defs.substitute_first hdefs]
  -- from here on the definitions are where they belong
  all_goals
    rw [isMarker_defs.substitute_second hdefs (List.infix_refl _), isMarker_defs.substitute_self]
  · exact isMarker_body.substitute_first hfirst _ _
  · exact isMarker_body.substitute_second hfirst hsecond _ _
  · exact isMarker_body.substitute_third hfirst hsecond _

/-- **Sections in their places.** The template is one fixed text around three markers. Three
sections take the places of the markers, whatever they hold, unless one of them holds the marker of
a later one. -/
theorem assemble_eq_filled (uniforms definitions body : String)
    (hdefs : ¬ "<defs>".toList <:+: uniforms.toList)
    (hfirst : ¬ "<body>".toList <:+: uniforms.toList)
    (hsecond : ¬ "<body>".toList <:+: definitions.toList) :
    template = filled "<uniforms>" "<defs>" "<body>" ∧
      assemble uniforms definitions body = filled uniforms definitions body := by
  rw [assemble_eq, if_neg hdefs, if_neg hfirst, if_neg hsecond]
  exact ⟨template_eq_filled, rfl⟩

/-- Sections may hold their own markers, those of earlier ones, and parts of others. -/
theorem assemble_eq_filled_markers :
    assemble "<uniforms>\n<de" "fs>\n<defs> <uniforms>\n<bo" "dy> <body> <defs> <uniforms>\n" =
      filled "<uniforms>\n<de" "fs>\n<defs> <uniforms>\n<bo" "dy> <body> <defs> <uniforms>\n" :=
  (assemble_eq_filled _ _ _ (by decide) (by decide) (by decide)).2

/-- Definitions that end up in the uniforms, with the marker of the template still in its place. -/
theorem assemble_defs_in_uniforms :
    assemble "<defs>" "D" "B" = filled "D" "<defs>" "B" ∧
      assemble "<defs>" "D" "B" ≠ filled "<defs>" "D" "B" := by
  have hcut : substitute "<defs>" "D" "<defs>" = "D" := isMarker_defs.substitute_self "D"
  have hassemble : assemble "<defs>" "D" "B" = filled "D" "<defs>" "B" := by
    rw [assemble_eq, if_pos (List.infix_refl _), hcut]
    exact isMarker_body.substitute_third (by decide) (by decide) "B"
  refine ⟨hassemble, ?_⟩
  -- the first characters of the first sections differ
  rw [hassemble, Ne, ← String.toList_inj, toList_filled, toList_filled, List.append_cancel_left_eq]
  exact fun h => absurd (congrArg List.head? h) (by decide)

end Texel.Glsl
