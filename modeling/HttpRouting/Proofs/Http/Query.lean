import HttpRouting.Proofs.Http.Segments

/-!
Queries written by forms.  The marks that hold a form together never stand in a written name or value,
so that it is taken apart where it was put together; and plus signs become blanks before escapes
are decoded, so that an escaped plus sign stays one.
-/

set_option autoImplicit false
set_option relaxedAutoImplicit false

namespace HttpRouting

open Text (EscapeOf Escaped smallDigits capitalDigits)

/-- The ways in which a form writes a text.  A blank becomes a plus sign or is escaped, the marks of
the form are escaped, and every other character may be. -/
inductive FormWritten : List Char → List Char → Prop
  | nil : FormWritten [] []
  | plus {text written : List Char} : FormWritten text written →
      FormWritten (' ' :: text) ('+' :: written)
  | keep {c : Char} {text written : List Char} : c ∉ [' ', '%', '+', '&', '='] →
      FormWritten text written → FormWritten (c :: text) (c :: written)
  | escape {c : Char} {text written : List Char} {escapes : List (List Char)} :
      List.Forall₂ EscapeOf (String.utf8EncodeChar c) escapes → FormWritten text written →
        FormWritten (c :: text) (escapes.flatten ++ written)

/-- A name with its value, as a form writes them. -/
def FormPair (pair : String × String) (written : List Char) : Prop :=
  ∃ name value, FormWritten pair.1.toList name ∧ FormWritten pair.2.toList value ∧
    written = name ++ '=' :: value

/-- Names with their values, as a form writes them. -/
def Form (pairs : List (String × String)) (written : List Char) : Prop :=
  ∃ pieces, List.Forall₂ FormPair pairs pieces ∧ written = ['&'].intercalate pieces

namespace FormWritten

variable {text written : List Char}

/-- With its plus signs made blank, a written text has only escapes to decode. -/
theorem escaped (form : FormWritten text written) :
    Escaped (· ∉ ['%', '+', '&', '=']) text (written.map fun c => if c = '+' then ' ' else c) := by
  induction form with
  | nil => exact .nil
  | plus _ ih => exact .keep (by decide) ih
  | @keep c text written other _ ih =>
    have same : (if c = '+' then ' ' else c) = c := if_neg fun plus => other (by simp [plus])
    rw [List.map_cons, same]
    exact .keep (fun mark => other (List.mem_cons_of_mem _ mark)) ih
  | @escape c text written escapes each _ ih =>
    have same : escapes.flatten.map (fun c => if c = '+' then ' ' else c) = escapes.flatten := by
      have no_plus : '+' ∉ escapes.flatten := fun member =>
        absurd (Text.mem_of_mem_escapes each member) (by decide)
      refine (List.map_congr_left fun c member => if_neg ?_).trans (List.map_id _)
      rintro rfl
      exact no_plus member
    rw [List.map_append, same]
    exact .escape each ih

/-- No mark of the form stands in a written text. -/
theorem not_mem (form : FormWritten text written) {mark : Char} (parts : mark ∈ ['&', '=']) :
    mark ∉ written := by
  have apart : mark ≠ '+' ∧ mark ∉ '%' :: (smallDigits ++ capitalDigits) := by
    rw [List.mem_pair] at parts
    rcases parts with rfl | rfl <;> decide
  intro member
  have spaced : mark ∈ written.map fun c => if c = '+' then ' ' else c :=
    List.mem_map.mpr ⟨mark, member, if_neg apart.1⟩
  rcases form.escaped.mem_cases spaced with ⟨-, kept⟩ | digit
  · exact kept (List.mem_cons_of_mem _ (List.mem_cons_of_mem _ parts))
  · exact apart.2 digit

theorem decodeQueryText (form : FormWritten text written) :
    RequestDraft.decodeQueryText written = String.ofList text := by
  rw [RequestDraft.decodeQueryText, form.escaped.percentDecoded? (by decide), Option.getD_some]

end FormWritten

section Pairs

variable {pair : String × String} {pairs : List (String × String)} {written : List Char}

theorem FormPair.queryPair (form : FormPair pair written) :
    RequestDraft.queryPair written = pair := by
  obtain ⟨name, value, name_written, value_written, rfl⟩ := form
  rw [RequestDraft.queryPair, Text.splitOnce?_append (name_written.not_mem (by decide))]
  simp only [name_written.decodeQueryText, value_written.decodeQueryText, String.ofList_toList]

theorem FormPair.ne_nil (form : FormPair pair written) : written ≠ [] := by
  obtain ⟨name, value, -, -, rfl⟩ := form
  simp

theorem FormPair.not_mem (form : FormPair pair written) : '&' ∉ written := by
  obtain ⟨name, value, name_written, value_written, rfl⟩ := form
  rw [List.mem_append, List.mem_cons]
  rintro (member | mark | member)
  · exact name_written.not_mem (by decide) member
  · cases mark
  · exact value_written.not_mem (by decide) member

/-- A form is taken apart into the pieces from which it was put together; a form without pairs is
empty, and its one empty piece does not count. -/
theorem filter_splitOn_intercalate {pieces : List (List Char)}
    (each : ∀ piece ∈ pieces, '&' ∉ piece ∧ piece ≠ []) :
    ((['&'].intercalate pieces).splitOn '&').filter (fun piece => !piece.isEmpty) = pieces := by
  cases pieces with
  | nil => rfl
  | cons first others =>
    rw [List.splitOn_intercalate '&' (fun piece listed => (each piece listed).1)
      (List.cons_ne_nil first others), List.filter_eq_self]
    intro piece listed
    simpa using (each piece listed).2

theorem Form.queryPairs (form : Form pairs written) : RequestDraft.queryPairs written = pairs := by
  obtain ⟨pieces, each, rfl⟩ := form
  have apart : ∀ piece ∈ pieces, '&' ∉ piece ∧ piece ≠ [] := by
    induction each with
    | nil => exact nofun
    | cons form _ ih => exact List.forall_mem_cons.mpr ⟨⟨form.not_mem, form.ne_nil⟩, ih⟩
  rw [RequestDraft.queryPairs, filter_splitOn_intercalate apart]
  clear apart
  induction each with
  | nil => rfl
  | cons form _ ih => rw [List.map_cons, form.queryPair, ih]

/-- A form behind the question mark leaves the path before it alone. -/
theorem Form.target (form : Form pairs written) {path : String} (plain : '?' ∉ path.toList) :
    RequestDraft.target (path ++ "?" ++ String.ofList written) =
      (if path = "" then "/" else path, pairs) := by
  have cut : (path ++ "?" ++ String.ofList written).toList = path.toList ++ '?' :: written := by
    simp [String.toList_append]
  rw [RequestDraft.target, cut, Text.splitOnce?_append plain, Option.getD_some]
  simp only [form.queryPairs, String.ofList_toList, List.isEmpty_iff, String.toList_eq_nil_iff]

end Pairs

namespace Request

variable {request : Request} {pairs : List (String × String)} {name : String}

theorem paramValues_eq :
    request.paramValues name = (request.query.filter fun pair => pair.1 = name).map Prod.snd := by
  rw [paramValues, ← List.filterMap_eq_filter, List.map_filterMap]
  congr 1
  funext pair
  by_cases same : pair.1 = name <;> simp [same, Option.guard]

theorem hasParam_iff : request.hasParam name = true ↔ name ∈ request.query.map Prod.fst := by
  rw [hasParam, List.any_eq_true, List.mem_map]
  exact exists_congr fun pair => and_congr_right fun _ => decide_eq_true_iff

end Request

/-- A query takes a form back.  Whatever draft makes a request at all makes one with the form behind
its path, and that request has the path, where the empty one is the root, and for every name the
values paired with it, in their order. -/
theorem build_takes_form_back {draft : RequestDraft} {supplied : Uuid}
    (makes : ∃ uri request, { draft with uri }.build supplied = .ok request) {path : String}
    (plain : '?' ∉ path.toList) {pairs : List (String × String)} {written : List Char}
    (form : Form pairs written) :
    ∃ request,
      { draft with uri := path ++ "?" ++ String.ofList written, params := [] }.build supplied =
        .ok request ∧
      request.path = (if path = "" then "/" else path) ∧
      ∀ name,
        request.paramValues name = (pairs.filter fun pair => pair.1 = name).map Prod.snd ∧
        request.param? name = ((pairs.filter fun pair => pair.1 = name).map Prod.snd).head? ∧
        (request.hasParam name = true ↔ name ∈ pairs.map Prod.fst) := by
  obtain ⟨other, request, made⟩ := makes
  have built := Request.build_for_target { draft with uri := other } supplied
    (path ++ "?" ++ String.ofList written) []
  rw [made, form.target plain, List.append_nil] at built
  refine ⟨_, built, rfl, fun name => ⟨Request.paramValues_eq, ?_, Request.hasParam_iff⟩⟩
  rw [Request.param?, Request.paramValues_eq]

/-- Names and values may be empty, names may repeat, and blanks are written in either way. -/
theorem notes_taken_back :
    let pairs := [("note", "a b c"), ("", "=ü"), ("note", "")]
    let written := "note=a+b%20c&=%3D%c3%BC&n%6Fte=".toList
    (∃ uri request, { RequestDraft.blank with uri }.build ⟨[]⟩ = .ok request) ∧
      '?' ∉ "/notes".toList ∧ Form pairs written ∧
      ∃ request,
        { RequestDraft.blank with uri := "/notes" ++ "?" ++ String.ofList written }.build ⟨[]⟩ =
          .ok request ∧
        request.path = "/notes" ∧ request.paramValues "note" = ["a b c", ""] ∧
        request.param? "" = some "=ü" ∧ request.hasParam "n" = false := by
  intro pairs written
  have makes : ∃ uri request, { RequestDraft.blank with uri }.build ⟨[]⟩ = .ok request :=
    ⟨"/", _, rfl⟩
  have plain : '?' ∉ "/notes".toList := by decide
  have blank : List.Forall₂ EscapeOf (String.utf8EncodeChar ' ') [['%', '2', '0']] :=
    .cons (.mk (.inl rfl) (.inl rfl)) .nil
  have equals : List.Forall₂ EscapeOf (String.utf8EncodeChar '=') [['%', '3', 'D']] :=
    .cons (.mk (.inl rfl) (.inr rfl)) .nil
  have umlaut : List.Forall₂ EscapeOf (String.utf8EncodeChar 'ü') [['%', 'c', '3'], ['%', 'B', 'C']] :=
    .cons (.mk (.inl rfl) (.inl rfl)) (.cons (.mk (.inr rfl) (.inr rfl)) .nil)
  have o : List.Forall₂ EscapeOf (String.utf8EncodeChar 'o') [['%', '6', 'F']] :=
    .cons (.mk (.inl rfl) (.inr rfl)) .nil
  have note : FormWritten "note".toList "note".toList :=
    .keep (by decide) (.keep (by decide) (.keep (by decide) (.keep (by decide) .nil)))
  have letters : FormWritten "a b c".toList "a+b%20c".toList :=
    .keep (by decide) (.plus (.keep (by decide) (.escape blank (.keep (by decide) .nil))))
  have mark : FormWritten "=ü".toList "%3D%c3%BC".toList := .escape equals (.escape umlaut .nil)
  have escaped_note : FormWritten "note".toList "n%6Fte".toList :=
    .keep (by decide) (.escape o (.keep (by decide) (.keep (by decide) .nil)))
  have form : Form pairs written :=
    ⟨["note=a+b%20c".toList, "=%3D%c3%BC".toList, "n%6Fte=".toList],
      .cons ⟨_, _, note, letters, rfl⟩ (.cons ⟨_, _, .nil, mark, rfl⟩
        (.cons ⟨_, _, escaped_note, .nil, rfl⟩ .nil)), by decide⟩
  obtain ⟨request, built, path, read⟩ := build_takes_form_back makes plain form
  refine ⟨makes, plain, form, request, built, path, (read "note").1, (read "").2.1, ?_⟩
  rw [Bool.eq_false_iff]
  exact fun has => absurd ((read "n").2.2.mp has) (by decide)

end HttpRouting
