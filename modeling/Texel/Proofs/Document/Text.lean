import Texel.Document.Text
import Texel.Proofs.Document.Rebuild
import Texel.Proofs.Json.RoundTrip

/-!
# Texel — the text of a document

What a document holds beside its numbers comes back from its text as it went in: ids and indices of
every size, strings with any characters, dictionaries in the order of their keys. A number comes
back as what its decimal reads as. A number that is not finite has no decimal: it is written as
null, which is not read as a number.

* **`Storable`** — ids and indices fit their fields, and dictionaries are in order.
* **`parse_render_eq`** — a text that was written, read: all numbers are replaced, or it is refused.
* **`parse_render`** — the round trip, where each number reads back as itself.
* **`Obtained`**, **`reloads_iff`** — documents that were read, or made from graphs, can be saved
  and loaded again if and only if all their numbers are finite.
-/

namespace Texel

/-! ## Dictionaries -/

namespace Dictionary

variable {α : Type}

/-- The keys ascend. -/
def Sorted (d : Dictionary α) : Prop := (d.map Prod.fst).Pairwise (· < ·)

instance (d : Dictionary α) : Decidable d.Sorted := inferInstanceAs (Decidable (List.Pairwise _ _))

theorem insert_of_lt {key : String} (value : α) {d : Dictionary α}
    (h : ∀ k ∈ d.map Prod.fst, k < key) : insert key value d = d ++ [(key, value)] := by
  induction d with
  | nil => rfl
  | cons e d ih =>
    simp only [List.map_cons, List.mem_cons, forall_eq_or_imp] at h
    rw [insert, if_neg h.1.ne', if_neg h.1.not_gt, ih h.2]
    rfl

theorem foldl_insert_of_sorted {entries d : Dictionary α} (h : Sorted (d ++ entries)) :
    entries.foldl (fun d (e : String × α) => insert e.1 e.2 d) d = d ++ entries := by
  induction entries generalizing d with
  | nil => exact (List.append_nil d).symm
  | cons e entries ih =>
    have hlast : ∀ k ∈ d.map Prod.fst, k < e.1 := by
      rw [Sorted, List.map_append, List.pairwise_append] at h
      exact fun k hk => h.2.2 k hk e.1 (by simp)
    rw [List.foldl_cons, insert_of_lt e.2 hlast, ih (by simpa using h), List.append_assoc]
    rfl

theorem ofList_of_sorted {d : Dictionary α} (h : Sorted d) : ofList d = d :=
  foldl_insert_of_sorted (d := []) h

theorem mem_keys_insert {key k : String} {value : α} {d : Dictionary α}
    (h : k ∈ (insert key value d).map Prod.fst) : k = key ∨ k ∈ d.map Prod.fst := by
  induction d with
  | nil => exact .inl (List.mem_singleton.mp h)
  | cons e d ih =>
    rw [insert] at h
    split_ifs at h with heq hlt
    · simp only [List.map_cons, List.mem_cons] at h ⊢
      exact h.imp_right .inr
    · simpa only [List.map_cons, List.mem_cons] using h
    · simp only [List.map_cons, List.mem_cons] at h ⊢
      rcases h with h | h
      · exact .inr (.inl h)
      · exact (ih h).imp_right .inr

theorem sorted_insert {d : Dictionary α} (h : d.Sorted) (key : String) (value : α) :
    (insert key value d).Sorted := by
  induction d with
  | nil => exact List.pairwise_singleton _ key
  | cons e d ih =>
    obtain ⟨hfirst, hrest⟩ := List.pairwise_cons.mp h
    rw [insert]
    split_ifs with heq hlt
    · exact List.pairwise_cons.mpr ⟨heq ▸ hfirst, hrest⟩
    · refine List.pairwise_cons.mpr ⟨fun k hk => ?_, h⟩
      rcases List.mem_cons.mp hk with rfl | hk
      · exact hlt
      · exact hlt.trans (hfirst k hk)
    · refine List.pairwise_cons.mpr ⟨fun k hk => ?_, ih hrest⟩
      rcases mem_keys_insert hk with rfl | hk
      · exact lt_of_le_of_ne (not_lt.mp hlt) (Ne.symm heq)
      · exact hfirst k hk

theorem sorted_ofList (entries : List (String × α)) : (ofList entries).Sorted := by
  refine List.foldlRecOn (motive := Sorted) entries _ List.Pairwise.nil fun d hd e _ => ?_
  exact sorted_insert hd e.1 e.2

end Dictionary

/-! ## What a text can hold -/

/-- The number that comes back when a number is written and read. -/
def Single.reread? (x : Single) : Option Single := (Json.ofSingle x).toSingle?

/-- The id fits into 32 bits, and the dictionaries are in order. -/
@[mk_iff] structure NodeRecord.Storable (r : NodeRecord) : Prop where
  id_lt : r.id < UInt32.size
  params : r.params.Sorted
  images : r.images.Sorted

@[mk_iff] structure Connection.Storable (c : Connection) : Prop where
  source_lt : c.source < UInt32.size
  output_lt : c.output < UInt64.size
  destination_lt : c.destination < UInt32.size
  input_lt : c.input < UInt64.size

@[mk_iff] structure Document.Storable (d : Document) : Prop where
  version : d.version = 1
  nodes : ∀ r ∈ d.nodes, r.Storable
  connections : ∀ c ∈ d.connections, c.Storable

instance (r : NodeRecord) : Decidable r.Storable := decidable_of_iff' _ r.storable_iff

instance (c : Connection) : Decidable c.Storable := decidable_of_iff' _ c.storable_iff

instance (d : Document) : Decidable d.Storable := decidable_of_iff' _ d.storable_iff

/-! ## Records -/

section MapM

variable {α γ : Type}

theorem mapM_congr {f g : α → Option γ} {xs : List α} (h : ∀ x ∈ xs, f x = g x) :
    xs.mapM f = xs.mapM g := by
  induction xs with
  | nil => rfl
  | cons x xs ih =>
    simp only [List.mem_cons, forall_eq_or_imp] at h
    rw [List.mapM_cons, List.mapM_cons, h.1, ih h.2]

theorem mapM_some {f : γ → Option γ} {xs : List γ} (h : ∀ x ∈ xs, f x = some x) :
    xs.mapM f = some xs := by
  induction xs with
  | nil => rfl
  | cons x xs ih =>
    simp only [List.mem_cons, forall_eq_or_imp] at h
    simp [h.1, ih h.2]

theorem exists_of_mem_mapM {f : α → Option γ} {xs : List α} {ys : List γ} {y : γ}
    (h : xs.mapM f = some ys) (hy : y ∈ ys) : ∃ x, f x = some y := by
  induction xs generalizing ys with
  | nil =>
    cases h
    cases hy
  | cons x xs ih =>
    simp only [List.mapM_cons, Option.bind_eq_bind, Option.bind_eq_some_iff, Option.pure_def,
      Option.some.injEq] at h
    obtain ⟨z, hz, zs, hzs, rfl⟩ := h
    rcases List.mem_cons.mp hy with rfl | hy
    · exact ⟨x, hz⟩
    · exact ih hzs hy

theorem isSome_mapM {f : α → Option γ} {xs : List α} :
    (xs.mapM f).isSome = true ↔ ∀ x ∈ xs, (f x).isSome = true := by
  induction xs with
  | nil => simp
  | cons x xs ih =>
    rw [List.mapM_cons, List.forall_mem_cons, ← ih]
    cases f x <;> cases xs.mapM f <;> simp

end MapM

namespace Value

/-- The value with every component replaced, unless one of them has no replacement. -/
def replace (f : Single → Option Single) (v : Value) : Option Value := do
  return ⟨← f v.x, ← f v.y, ← f v.z, ← f v.w⟩

end Value

namespace NodeRecord

/-- All numbers of the record. -/
def singles (r : NodeRecord) : List Single :=
  [r.position.1, r.position.2] ++ r.params.flatMap (·.2.toList)

def replace (f : Single → Option Single) (r : NodeRecord) : Option NodeRecord := do
  let x ← f r.position.1
  let y ← f r.position.2
  let params ← r.params.mapM fun e => (e.2.replace f).map (e.1, ·)
  return { r with position := (x, y), params }

theorem singles?_singlesJson (xs : List Single) :
    singles? (singlesJson xs) = xs.mapM Single.reread? := by
  rw [singles?, singlesJson, Json.toList?, List.mapM_map]
  rfl

theorem positionOf?_singlesJson (x y : Single) :
    positionOf? (singlesJson [x, y]) = (do return (← x.reread?, ← y.reread?)) := by
  rw [positionOf?, singles?_singlesJson, List.mapM_cons, List.mapM_cons, List.mapM_nil]
  cases x.reread? <;> cases y.reread? <;> rfl

theorem valueOf?_singlesJson (v : Value) :
    valueOf? (singlesJson v.toList) = v.replace Single.reread? := by
  rw [valueOf?, singles?_singlesJson, Value.toList, Value.replace]
  simp only [List.mapM_cons, List.mapM_nil]
  cases v.x.reread? <;> cases v.y.reread? <;> cases v.z.reread? <;> cases v.w.reread? <;> rfl

theorem ofSlug?_slug (b : Builtin) : Builtin.ofSlug? b.slug = some b := by
  cases b <;> decide

theorem keys_mapM {α γ : Type} {f : String × α → Option γ} {entries : List (String × α)}
    {read : List (String × γ)} (h : entries.mapM (fun e => (f e).map (e.1, ·)) = some read) :
    read.map Prod.fst = entries.map Prod.fst := by
  induction entries generalizing read with
  | nil =>
    cases h
    rfl
  | cons e entries ih =>
    simp only [List.mapM_cons, Option.bind_eq_bind, Option.bind_eq_some_iff,
      Option.map_eq_some_iff, Option.pure_def, Option.some.injEq] at h
    obtain ⟨_, ⟨c, _, rfl⟩, rest, hrest, rfl⟩ := h
    simp [ih hrest]

/-- A dictionary, read back entry by entry. -/
theorem dictionaryOf?_object {α γ : Type} (read : Json → Option γ) (write : α → Json)
    {entries : Dictionary α} (h : entries.Sorted) :
    dictionaryOf? read (.object (entries.map fun e => (some e.1, write e.2))) =
      entries.mapM fun e => (read (write e.2)).map (e.1, ·) := by
  have hmembers : Json.toMembers? read (.object (entries.map fun e => (some e.1, write e.2))) =
      entries.mapM fun e => (read (write e.2)).map (e.1, ·) := by
    rw [Json.toMembers?, List.mapM_map]
    congr 1
    funext e
    cases hread : read (write e.2) <;> simp [hread]
  rw [dictionaryOf?, hmembers]
  cases hentries : entries.mapM fun e => (read (write e.2)).map (e.1, ·) with
  | none => rfl
  | some out =>
    -- the keys that come back are those that were written, so sorting them changes nothing
    have hsorted : Dictionary.Sorted out := by rwa [Dictionary.Sorted, keys_mapM hentries]
    rw [Option.map_some, Dictionary.ofList_of_sorted hsorted]

theorem ofJson?_toJson {r : NodeRecord} (h : r.Storable) :
    ofJson? r.toJson = r.replace Single.reread? := by
  have hfields : r.toJson.toFields? ["id", "type", "position", "params", "images"] =
      some [some (Json.ofNat r.id), some (Json.ofText r.builtin.slug),
        some (singlesJson [r.position.1, r.position.2]),
        some (.object (r.params.map fun e => (some e.1, singlesJson e.2.toList))),
        some (.object (r.images.map fun e => (some e.1, Json.ofText e.2)))] := by
    simp [toJson, Json.toFields?]
  -- only the position and the parameters hold numbers; all else comes back as it is
  have hid := Json.toNat?_ofNat h.id_lt (by decide)
  have hbuiltin : builtinOf? (Json.ofText r.builtin.slug) = some r.builtin := ofSlug?_slug r.builtin
  have hparams := dictionaryOf?_object valueOf? (fun v => singlesJson v.toList) h.params
  have himages := (dictionaryOf?_object Json.toText? Json.ofText h.images).trans
    (mapM_some fun _ _ => rfl)
  simp only [valueOf?_singlesJson] at hparams
  simp [ofJson?, hfields, Json.required, Json.optional, hid, hbuiltin, positionOf?_singlesJson,
    hparams, himages, replace, Option.bind_assoc]

end NodeRecord

theorem Connection.ofJson?_toJson {c : Connection} (h : c.Storable) :
    ofJson? c.toJson = some c := by
  have hfields : c.toJson.toFields?
      ["source", "source_output", "destination", "destination_input"] =
      some [some (Json.ofNat c.source), some (Json.ofNat c.output), some (Json.ofNat c.destination),
        some (Json.ofNat c.input)] := by
    simp [toJson, Json.toFields?]
  simp [ofJson?, hfields, Json.required, Json.toNat?_ofNat h.source_lt (by decide),
    Json.toNat?_ofNat h.output_lt le_rfl, Json.toNat?_ofNat h.destination_lt (by decide),
    Json.toNat?_ofNat h.input_lt le_rfl]

namespace Document

def singles (d : Document) : List Single := d.nodes.flatMap NodeRecord.singles

def replace (f : Single → Option Single) (d : Document) : Option Document := do
  return { d with nodes := ← d.nodes.mapM (·.replace f) }

theorem ofJson?_toJson {d : Document} (h : d.Storable) :
    ofJson? d.toJson = d.replace Single.reread? := by
  have hfields : d.toJson.toFields? ["version", "nodes", "connections"] =
      some [some (Json.ofNat d.version), some (.array (d.nodes.map NodeRecord.toJson)),
        some (.array (d.connections.map Connection.toJson))] := by
    simp [toJson, Json.toFields?]
  have hversion : (Json.ofNat d.version).toNat? UInt32.size = some d.version :=
    Json.toNat?_ofNat (by rw [h.version]; decide) (by decide)
  have hnodes : Json.toList? NodeRecord.ofJson? (.array (d.nodes.map NodeRecord.toJson)) =
      d.nodes.mapM (·.replace Single.reread?) := by
    rw [Json.toList?, List.mapM_map]
    exact mapM_congr fun r hr => NodeRecord.ofJson?_toJson (h.nodes r hr)
  have hconnections :
      Json.toList? Connection.ofJson? (.array (d.connections.map Connection.toJson)) =
      some d.connections := by
    rw [Json.toList?, List.mapM_map]
    exact mapM_some fun c hc => Connection.ofJson?_toJson (h.connections c hc)
  simp [ofJson?, hfields, Json.required, Json.optional, hversion, hnodes, hconnections, replace]

end Document

/-! ## Spelling -/

theorem Json.spelled_ofNat (n : Nat) : (ofNat n).Spelled := by
  have h := Spelled.number (Numeral.Spelling.ofNat n)
  rwa [Numeral.Spelling.text_ofNat] at h

theorem Json.spelled_ofSingle (x : Single) : (ofSingle x).Spelled := by
  rw [ofSingle]
  split_ifs with h
  · obtain ⟨s, hs, _⟩ := exists_single h
    exact hs ▸ Spelled.number s
  · exact Spelled.null

theorem NodeRecord.spelled_singlesJson (xs : List Single) : (singlesJson xs).Spelled :=
  Json.Spelled.array (List.forall_mem_map.mpr fun x _ => Json.spelled_ofSingle x)

theorem NodeRecord.spelled_toJson (r : NodeRecord) : r.toJson.Spelled := by
  have hparams : (Json.object (r.params.map fun e => (some e.1, singlesJson e.2.toList))).Spelled :=
    .object (List.forall_mem_map.mpr fun e _ => spelled_singlesJson e.2.toList)
  have himages : (Json.object (r.images.map fun e => (some e.1, Json.ofText e.2))).Spelled :=
    .object (List.forall_mem_map.mpr fun e _ => .string (some e.2))
  refine .object ?_
  simp only [List.mem_cons, forall_eq_or_imp, List.not_mem_nil, false_imp_iff, implies_true,
    and_true]
  exact ⟨Json.spelled_ofNat r.id, .string _, spelled_singlesJson _, hparams, himages⟩

theorem Connection.spelled_toJson (c : Connection) : c.toJson.Spelled := by
  refine .object ?_
  simp only [List.mem_cons, forall_eq_or_imp, List.not_mem_nil, false_imp_iff, implies_true,
    and_true]
  exact ⟨Json.spelled_ofNat _, Json.spelled_ofNat _, Json.spelled_ofNat _, Json.spelled_ofNat _⟩

namespace Document

theorem spelled_toJson (d : Document) : d.toJson.Spelled := by
  refine .object ?_
  simp only [List.mem_cons, forall_eq_or_imp, List.not_mem_nil, false_imp_iff, implies_true,
    and_true]
  exact ⟨Json.spelled_ofNat _, .array (List.forall_mem_map.mpr fun r _ => r.spelled_toJson),
    .array (List.forall_mem_map.mpr fun c _ => c.spelled_toJson)⟩

/-- A document that has been written, read: every number has become what it reads as. -/
theorem parse_render_eq {d : Document} (h : d.Storable) :
    parse d.render = (d.replace Single.reread?).elim (.error .malformedDocument) .ok := by
  have hjson : (Json.parse? d.render).bind ofJson? = d.replace Single.reread? := by
    rw [render, Json.parse?_render d.spelled_toJson, Option.bind_some, ofJson?_toJson h]
  rw [parse, hjson]
  cases hread : d.replace Single.reread? with
  | none => rfl
  | some d' =>
    have hversion : d'.version = 1 := by
      simp only [replace, Option.bind_eq_bind, Option.bind_eq_some_iff, Option.pure_def,
        Option.some.injEq] at hread
      obtain ⟨nodes, _, rfl⟩ := hread
      exact h.version
    exact if_pos hversion

end Document

/-! ## Replacing numbers -/

section Replace

variable {f : Single → Option Single}

theorem Value.replace_self {v : Value} (h : ∀ x ∈ v.toList, f x = some x) :
    v.replace f = some v := by
  simp only [toList, List.mem_cons, List.not_mem_nil, or_false, forall_eq_or_imp, forall_eq] at h
  simp [replace, h]

theorem Value.isSome_replace {v : Value} :
    (v.replace f).isSome = true ↔ ∀ x ∈ v.toList, (f x).isSome = true := by
  simp only [toList, List.mem_cons, List.not_mem_nil, or_false, forall_eq_or_imp, forall_eq,
    replace]
  cases f v.x <;> cases f v.y <;> cases f v.z <;> cases f v.w <;> simp

theorem NodeRecord.forall_mem_singles {r : NodeRecord} {P : Single → Prop} :
    (∀ x ∈ r.singles, P x) ↔
      P r.position.1 ∧ P r.position.2 ∧ ∀ e ∈ r.params, ∀ x ∈ e.2.toList, P x := by
  simp only [singles, List.forall_mem_append, List.forall_mem_cons, List.forall_mem_flatMap,
    List.not_mem_nil, false_imp_iff, implies_true, and_true, and_assoc]

theorem NodeRecord.replace_self {r : NodeRecord} (h : ∀ x ∈ r.singles, f x = some x) :
    r.replace f = some r := by
  obtain ⟨hx, hy, hparams⟩ := forall_mem_singles.mp h
  have hentries : r.params.mapM (fun e : String × Value => (e.2.replace f).map (e.1, ·)) =
      some r.params :=
    mapM_some fun e he => by rw [Value.replace_self (hparams e he), Option.map_some]
  simp [replace, hx, hy, hentries]

theorem NodeRecord.isSome_replace {r : NodeRecord} :
    (r.replace f).isSome = true ↔ ∀ x ∈ r.singles, (f x).isSome = true := by
  have hentries :
      (r.params.mapM fun e : String × Value => (e.2.replace f).map (e.1, ·)).isSome = true ↔
      ∀ e ∈ r.params, ∀ x ∈ e.2.toList, (f x).isSome = true := by
    simp only [isSome_mapM, Option.isSome_map, Value.isSome_replace]
  rw [forall_mem_singles, ← hentries, replace]
  cases f r.position.1 <;> cases f r.position.2 <;>
    cases r.params.mapM (fun e : String × Value => (e.2.replace f).map (e.1, ·)) <;> simp

namespace Document

theorem replace_self {d : Document} (h : ∀ x ∈ d.singles, f x = some x) : d.replace f = some d := by
  have hnodes : d.nodes.mapM (NodeRecord.replace f) = some d.nodes := mapM_some fun r hr =>
    NodeRecord.replace_self (List.forall_mem_flatMap.mp h r hr)
  simp [replace, hnodes]

theorem isSome_replace {d : Document} :
    (d.replace f).isSome = true ↔ ∀ x ∈ d.singles, (f x).isSome = true := by
  have hnodes : (d.nodes.mapM (NodeRecord.replace f)).isSome = true ↔
      ∀ x ∈ d.singles, (f x).isSome = true := by
    simp only [isSome_mapM, NodeRecord.isSome_replace, singles, List.forall_mem_flatMap]
  rw [← hnodes, replace]
  cases d.nodes.mapM (NodeRecord.replace f) <;> simp

end Document

end Replace

namespace Document

/-- **Round trip.** A document whose ids and indices fit and whose dictionaries are in order, all of
whose numbers are finite, comes back from its text, if the decimal of each of its numbers reads as
that number. Names and paths may be any strings. -/
theorem parse_render {d : Document} (h : d.Storable) (hfinite : ∀ x ∈ d.singles, x.isFinite = true)
    (hpair : ∀ x ∈ d.singles, x.isFinite = true → (Json.ofSingle x).toSingle? = some x) :
    parse d.render = .ok d := by
  have hreread : d.replace Single.reread? = some d := replace_self fun x hx =>
    hpair x hx (hfinite x hx)
  rw [parse_render_eq h, hreread]
  rfl

/-- The largest ids and indices, numbers at the ends of their range, and strings that need
escapes. -/
def signpost : Document where
  nodes :=
    [{ id := 4294967295
       builtin := .imageInput
       position := (⟨0x80000000⟩, ⟨0x00000001⟩)
       params :=
        [("", ⟨⟨0x3dcccccd⟩, ⟨0x7f7fffff⟩, ⟨0x00800000⟩, ⟨0xc2f6e979⟩⟩),
          ("a \"b\"\\\x00\n", ⟨0, 1, ⟨0x4b800001⟩, ⟨0xb3ab8d98⟩⟩)]
       images := [("\x7f😀", "C:\\images\t\x1b.png"), ("é", "")] }]
  connections := [⟨4294967295, 18446744073709551615, 0, 7⟩]

theorem parse_render_signpost :
    signpost.Storable ∧ (∀ x ∈ signpost.singles, x.isFinite = true) ∧
      (∀ x ∈ signpost.singles, x.isFinite = true → (Json.ofSingle x).toSingle? = some x) ∧
      parse signpost.render = .ok signpost := by
  have hstorable : signpost.Storable := by decide +kernel
  have hfinite : ∀ x ∈ signpost.singles, x.isFinite = true := by decide +kernel
  have hpair :
      ∀ x ∈ signpost.singles, x.isFinite = true → (Json.ofSingle x).toSingle? = some x := by
    decide +kernel
  exact ⟨hstorable, hfinite, hpair, parse_render hstorable hfinite hpair⟩

end Document

/-! ## Documents that have been read -/

theorem Json.lt_of_toNat? {v : Json} {bound n : Nat} (h : v.toNat? bound = some n) : n < bound := by
  cases v with
  | number literal =>
    simp only [toNat?, Option.bind_eq_bind, Option.bind_eq_some_iff] at h
    obtain ⟨numeral, _, amount, _, h⟩ := h
    cases amount with
    | natural m =>
      simp only [Amount.toNat?] at h
      split_ifs at h with hlt
      exact Option.some.inj h ▸ hlt
    | negative m => cases h
    | real sign m => cases h
  | _ => cases h

theorem Json.lt_of_required {field : Option Json} {bound n : Nat}
    (h : required (toNat? bound) field = some n) : n < bound := by
  obtain ⟨v, _, hv⟩ := Option.bind_eq_some_iff.mp h
  exact lt_of_toNat? hv

theorem Json.exists_of_mem_toList? {α : Type} {f : Json → Option α} {v : Json} {xs : List α} {x : α}
    (h : v.toList? f = some xs) (hx : x ∈ xs) : ∃ u, f u = some x := by
  cases v with
  | array items => exact exists_of_mem_mapM h hx
  | _ => cases h

theorem NodeRecord.sorted_of_optional {α : Type} {read : Json → Option α} {field : Option Json}
    {entries : Dictionary α} (h : Json.optional [] (dictionaryOf? read) field = some entries) :
    entries.Sorted := by
  cases field with
  | none =>
    cases h
    exact List.Pairwise.nil
  | some v =>
    obtain ⟨members, _, rfl⟩ := Option.map_eq_some_iff.mp h
    exact Dictionary.sorted_ofList members

theorem NodeRecord.storable_of_ofJson? {v : Json} {r : NodeRecord} (h : ofJson? v = some r) :
    r.Storable := by
  rw [ofJson?] at h
  obtain ⟨fields, _, h⟩ := Option.bind_eq_some_iff.mp h
  split at h
  · simp only [Option.bind_eq_bind, Option.bind_eq_some_iff, Option.some.injEq] at h
    obtain ⟨id, hid, builtin, _, position, _, params, hparams, images, himages, rfl⟩ := h
    exact ⟨Json.lt_of_required hid, sorted_of_optional hparams, sorted_of_optional himages⟩
  · cases h

theorem Connection.storable_of_ofJson? {v : Json} {c : Connection} (h : ofJson? v = some c) :
    c.Storable := by
  rw [ofJson?] at h
  obtain ⟨fields, _, h⟩ := Option.bind_eq_some_iff.mp h
  split at h
  · simp only [Option.bind_eq_bind, Option.bind_eq_some_iff, Option.some.injEq] at h
    obtain ⟨source, hsource, output, houtput, destination, hdestination, input, hinput, rfl⟩ := h
    exact ⟨Json.lt_of_required hsource, Json.lt_of_required houtput,
      Json.lt_of_required hdestination, Json.lt_of_required hinput⟩
  · cases h

namespace Document

theorem storable_of_ofJson? {v : Json} {d : Document} (h : ofJson? v = some d)
    (hversion : d.version = 1) : d.Storable := by
  rw [ofJson?] at h
  obtain ⟨fields, _, h⟩ := Option.bind_eq_some_iff.mp h
  split at h
  · rename_i version? nodes? connections? _
    simp only [Option.bind_eq_bind, Option.bind_eq_some_iff, Option.some.injEq] at h
    obtain ⟨version, _, nodes, hnodes, connections, hconnections, rfl⟩ := h
    refine ⟨hversion, fun r hr => ?_, fun c hc => ?_⟩
    · -- every record has been read from some value, and so has every connection
      obtain ⟨field, _, hfield⟩ := Option.bind_eq_some_iff.mp hnodes
      obtain ⟨u, hu⟩ := Json.exists_of_mem_toList? hfield hr
      exact NodeRecord.storable_of_ofJson? hu
    · cases connections? with
      | none =>
        cases hconnections
        cases hc
      | some field =>
        obtain ⟨u, hu⟩ := Json.exists_of_mem_toList? hconnections hc
        exact Connection.storable_of_ofJson? hu
  · cases h

theorem storable_of_parse {text : String} {d : Document} (h : parse text = .ok d) : d.Storable := by
  rw [parse] at h
  split at h
  · cases h
  · rename_i read hread
    split_ifs at h with hversion
    cases h
    obtain ⟨v, _, hv⟩ := Option.bind_eq_some_iff.mp hread
    exact storable_of_ofJson? hv hversion

end Document

/-! ## Documents of graphs -/

theorem Builtin.few_sockets (b : Builtin) :
    b.operator.ports.inputs.length < UInt64.size ∧
    b.operator.ports.outputs.length < UInt64.size := by
  cases b <;> decide

namespace Document

theorem storable_ofGraph {g : Graph Builtin} (hwell : g.WellFormed) (hstandard : g.Standard)
    (hsize : g.size ≤ UInt32.size) : (ofGraph g).Storable := by
  have hlt : ∀ {id : Nat} {n : Node Builtin}, g.nodes[id]? = some n → id < UInt32.size :=
    fun hn => (List.getElem?_eq_some_iff.mp hn).1.trans_le hsize
  have hsockets : ∀ {id : Nat} {n : Node Builtin}, g.nodes[id]? = some n →
      n.inputs.length < UInt64.size ∧ n.outputs.length < UInt64.size := by
    intro id n hn
    have hlengths := Ports.lengths_of_outline (hstandard n (List.mem_of_getElem? hn))
    have hfew := n.behavior.few_sockets
    exact ⟨hlengths.1 ▸ hfew.1, hlengths.2 ▸ hfew.2⟩
  refine ⟨rfl, ?_, fun c hc => ?_⟩
  · refine List.forall_mem_map.mpr fun n hn => ?_
    obtain ⟨id, hid⟩ := List.getElem?_of_mem hn
    have hsorted := hstandard.sorted_params hn
    have hbound : n.id < UInt32.size := by
      rw [hwell.ids id n hid]
      exact hlt hid
    exact ⟨hbound, hsorted.sublist (NodeRecord.params_sublist n),
      hsorted.sublist (NodeRecord.images_sublist n)⟩
  · obtain ⟨n, hn, houtput⟩ := hwell.leaves c hc
    obtain ⟨m, hm, hinput⟩ := hwell.enters c hc
    exact ⟨hlt hn, houtput.trans (hsockets hn).2, hlt hm, hinput.trans (hsockets hm).1⟩

/-- How documents come about: by reading a text, or from a graph whose ids fit into 32 bits. -/
inductive Obtained : Document → Prop
  | read {text : String} {d : Document} (h : parse text = .ok d) : Obtained d
  | recorded (revisions : List (Graph.Revision Builtin))
      (h : (Graph.ofRevisions revisions).size ≤ UInt32.size) :
      Obtained (ofGraph (Graph.ofRevisions revisions))

theorem Obtained.storable {d : Document} (h : d.Obtained) : d.Storable := by
  cases h with
  | read h => exact storable_of_parse h
  | recorded revisions h =>
    exact storable_ofGraph (Graph.wellFormed_ofOperations _)
      (Graph.standard_ofRevisions revisions) h

/-- **Saving and loading again.** A document that was read, or made from a graph with a history, can
be read from its own text exactly if all its numbers are finite; otherwise that text is
malformed. -/
theorem reloads_iff {d : Document} (h : d.Obtained) :
    ((∃ d', parse d.render = .ok d') ↔ ∀ x ∈ d.singles, x.isFinite = true) ∧
      ((∃ x ∈ d.singles, x.isFinite = false) → parse d.render = .error .malformedDocument) := by
  have hsome : (d.replace Single.reread?).isSome = true ↔ ∀ x ∈ d.singles, x.isFinite = true := by
    simp only [isSome_replace, Single.reread?, Json.isSome_toSingle?_ofSingle]
  have hnone : (∃ x ∈ d.singles, x.isFinite = false) ↔ ¬∀ x ∈ d.singles, x.isFinite = true := by
    simp
  rw [hnone, ← hsome, parse_render_eq h.storable]
  cases d.replace Single.reread? with
  | none => simp
  | some d' => simp

/-- A color with components that are no whole numbers, one of them below zero. -/
def tinted : List (Graph.Revision Builtin) :=
  [.edit (.create .color), .edit (.setParam 0 "Color" ⟨⟨0x3dcccccd⟩, ⟨0xbe4ccccd⟩, 1, 1⟩)]

theorem reloads_tinted :
    (Graph.ofRevisions tinted).size ≤ UInt32.size ∧
      ∃ d', parse (ofGraph (Graph.ofRevisions tinted)).render = .ok d' := by
  have hsize : (Graph.ofRevisions tinted).size ≤ UInt32.size := by decide
  have hfinite : ∀ x ∈ (ofGraph (Graph.ofRevisions tinted)).singles, x.isFinite = true := by
    decide +kernel
  exact ⟨hsize, (reloads_iff (.recorded tinted hsize)).1.mpr hfinite⟩

/-- A text with a coordinate that is too large for a finite number. -/
def remoteText : String :=
  "\x7b\"version\":1,\"nodes\":[\x7b\"id\":0,\"type\":\"color\",\"position\":[1e39,0]\x7d]\x7d"

def remote : Document where
  nodes := [{ id := 0, builtin := .color, position := (⟨0x7f800000⟩, 0) }]

theorem parse_remoteText : parse remoteText = .ok remote := by
  have hread : (Json.parse? remoteText).bind ofJson? = some remote := by decide +kernel
  rw [parse, hread]
  rfl

/-- The text can be read, but not what is written for it. -/
theorem remote_not_reloaded :
    parse remoteText = .ok remote ∧ parse remote.render = .error .malformedDocument := by
  have hreplace : remote.replace Single.reread? = none := by decide +kernel
  refine ⟨parse_remoteText, ?_⟩
  rw [parse_render_eq (storable_of_parse parse_remoteText), hreplace]
  rfl

end Document
end Texel
