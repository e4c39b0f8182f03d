import HttpRouting.Http.Request
import HttpRouting.Proofs.Outcome
import HttpRouting.Proofs.Text.Percent
import HttpRouting.Proofs.Text.Split

/-!
The segments of a path stay apart when the path is decoded.  A decoded segment has no slash, whatever
escapes stand in it, so a path is decoded segment by segment; and a path that was escaped segment by
segment is looked up by the segments it was made from.
-/

set_option autoImplicit false
set_option relaxedAutoImplicit false

namespace HttpRouting.Request

/-- A text begins with an escaped slash. -/
def EscapedSlash (text : List Char) : Prop :=
  ∃ mark rest, (mark = 'F' ∨ mark = 'f') ∧ text = '%' :: '2' :: mark :: rest

/-- The segment by which a segment of a path is looked up. -/
def lookupSegment (segment : List Char) : List Char :=
  decodeSegment (Text.upTo ';' segment)

section EscapedSlashes

variable {c : Char} {text piece rest suffix : List Char} {pieces : List (List Char)}

theorem not_escapedSlash_of_ne (other : c ≠ '%') : ¬ EscapedSlash (c :: rest) := by
  rintro ⟨_, _, -, same⟩
  exact other (List.cons.inj same).1

theorem escapedSlashInduction {motive : List Char → Prop} (nil : motive [])
    (cut : ∀ mark rest, mark = 'F' ∨ mark = 'f' → motive rest → motive ('%' :: '2' :: mark :: rest))
    (step : ∀ c rest, ¬ EscapedSlash (c :: rest) → motive rest → motive (c :: rest))
    (text : List Char) : motive text := by
  have uncut {c : Char} {rest : List Char}
      (no_capital : ∀ rest', c = '%' → rest = '2' :: 'F' :: rest' → False)
      (no_small : ∀ rest', c = '%' → rest = '2' :: 'f' :: rest' → False) :
      ¬ EscapedSlash (c :: rest) := by
    rintro ⟨mark, rest', rfl | rfl, same⟩
    · obtain ⟨rfl, rfl⟩ := List.cons.inj same
      exact no_capital rest' rfl rfl
    · obtain ⟨rfl, rfl⟩ := List.cons.inj same
      exact no_small rest' rfl rfl
  induction text using splitEscapedSlashes.induct with
  | case1 => exact nil
  | case2 rest ih => exact cut 'F' rest (.inl rfl) ih
  | case3 rest ih => exact cut 'f' rest (.inr rfl) ih
  | case4 c rest no_capital no_small _ ih => exact step c rest (uncut no_capital no_small) ih
  | case5 c rest no_capital no_small _ _ _ ih => exact step c rest (uncut no_capital no_small) ih

theorem splitEscapedSlashes_cut {mark : Char} (slash : mark = 'F' ∨ mark = 'f') (rest : List Char) :
    splitEscapedSlashes ('%' :: '2' :: mark :: rest) = [] :: splitEscapedSlashes rest := by
  rcases slash with rfl | rfl <;> rfl

theorem splitEscapedSlashes_cons (other : ¬ EscapedSlash (c :: rest))
    (split : splitEscapedSlashes rest = piece :: pieces) :
    splitEscapedSlashes (c :: rest) = (c :: piece) :: pieces := by
  rw [splitEscapedSlashes.eq_4, split]
  · rintro rest' rfl rfl
    exact other ⟨'F', rest', .inl rfl, rfl⟩
  · rintro rest' rfl rfl
    exact other ⟨'f', rest', .inr rfl, rfl⟩

theorem splitEscapedSlashes_of_not_mem (plain : '%' ∉ text) : splitEscapedSlashes text = [text] := by
  induction text with
  | nil => rfl
  | cons c text ih =>
    rw [List.mem_cons, not_or] at plain
    exact splitEscapedSlashes_cons (not_escapedSlash_of_ne (Ne.symm plain.1)) (ih plain.2)

/-- The first piece begins the text, and no escaped slash is left in any piece. -/
theorem exists_splitEscapedSlashes (text : List Char) :
    ∃ piece pieces, splitEscapedSlashes text = piece :: pieces ∧ piece <+: text ∧
      ∀ p ∈ piece :: pieces, ∀ suffix, suffix <:+ p → ¬ EscapedSlash suffix := by
  have nil_free (suffix : List Char) (ends : suffix <:+ []) : ¬ EscapedSlash suffix := by
    rintro ⟨_, _, -, rfl⟩
    cases List.suffix_nil.mp ends
  induction text using escapedSlashInduction with
  | nil => exact ⟨[], [], rfl, List.nil_prefix, by simpa using nil_free⟩
  | cut mark rest slash ih =>
    obtain ⟨piece, pieces, split, -, free⟩ := ih
    refine ⟨[], piece :: pieces, ?_, List.nil_prefix, List.forall_mem_cons.mpr ⟨nil_free, free⟩⟩
    rw [splitEscapedSlashes_cut slash, split]
  | step c rest other ih =>
    obtain ⟨piece, pieces, split, begins, free⟩ := ih
    obtain ⟨free_piece, free_pieces⟩ := List.forall_mem_cons.mp free
    refine ⟨c :: piece, pieces, splitEscapedSlashes_cons other split,
      List.cons_prefix_cons.mpr ⟨rfl, begins⟩, List.forall_mem_cons.mpr ⟨?_, free_pieces⟩⟩
    intro suffix ends
    rcases List.suffix_cons_iff.mp ends with rfl | later
    · -- An escaped slash at the beginning of the piece would be one of the text.
      rintro ⟨mark, behind, slash, same⟩
      obtain ⟨tail, rfl⟩ := begins
      refine other ⟨mark, behind ++ tail, slash, ?_⟩
      rw [← List.cons_append, same]
      rfl
    · exact free_piece suffix later

end EscapedSlashes

section Decoding

variable {kept : Char → Prop} {text written segment : List Char}

/-- A slash among decoded octets stood in the text or was escaped in it. -/
theorem slash_of_mem_percentDecode (text : List Char)
    (decoded : 0x2F ∈ Text.percentDecode (text.flatMap String.utf8EncodeChar)) :
    '/' ∈ text ∨ ∃ suffix, suffix <:+ text ∧ EscapedSlash suffix := by
  have of_rest (front : List Char) {rest : List Char}
      (found : '/' ∈ rest ∨ ∃ suffix, suffix <:+ rest ∧ EscapedSlash suffix) :
      '/' ∈ front ++ rest ∨ ∃ suffix, suffix <:+ front ++ rest ∧ EscapedSlash suffix := by
    rcases found with slash | ⟨suffix, ends, escaped⟩
    · exact .inl (List.mem_append_right front slash)
    · exact .inr ⟨suffix, ends.trans (List.suffix_append front rest), escaped⟩
  match text with
  | [] => cases decoded
  | c :: rest =>
    by_cases sign : c = '%'
    · subst sign
      rw [List.flatMap_cons, Text.utf8EncodeChar_percent, List.singleton_append] at decoded
      rcases Text.percentDecode_percent_text rest with
        alone | ⟨first, second, rest', high, low, octet, rfl, first_code, second_code, pair, escape⟩
      · rw [alone, List.mem_cons] at decoded
        rcases decoded with differs | later
        · cases differs
        · exact of_rest ['%'] (slash_of_mem_percentDecode rest later)
      · rw [escape, List.mem_cons] at decoded
        rcases decoded with slash | later
        · right
          obtain ⟨high_code, low_code⟩ := Text.eq_of_hexPair?_slash (slash ▸ pair)
          have first_char : first = '2' := Char.toNat_inj.mp (first_code.trans high_code)
          refine ⟨_, List.suffix_refl _, second, rest', ?_, by rw [first_char]⟩
          rcases low_code with capital | small
          · exact .inl (Char.toNat_inj.mp (second_code.trans capital))
          · exact .inr (Char.toNat_inj.mp (second_code.trans small))
        · exact of_rest ['%', first, second] (slash_of_mem_percentDecode rest' later)
    · rw [List.flatMap_cons,
        Text.percentDecode_append_of_not_mem (Text.percent_not_mem_utf8EncodeChar sign),
        List.mem_append] at decoded
      rcases decoded with here | later
      · have code : c.toNat = '/'.toNat := Text.toNat_of_mem_utf8EncodeChar here (by decide)
        rw [Char.toNat_inj.mp code]
        exact .inl List.mem_cons_self
      · exact of_rest [c] (slash_of_mem_percentDecode rest later)
termination_by text.length

/-- What the pieces of a segment decode to has no slash. -/
theorem slash_not_mem_of_percentDecoded? {piece : List Char} {decoded : String}
    (free : '/' ∉ piece) (uncut : ∀ suffix, suffix <:+ piece → ¬ EscapedSlash suffix)
    (reads : Text.percentDecoded? (String.ofList piece) = some decoded) :
    '/' ∉ decoded.toList := by
  intro slash
  have octets : Text.utf8 decoded = Text.percentDecode (piece.flatMap String.utf8EncodeChar) := by
    rw [Text.utf8_of_ofUtf8? reads, Text.utf8_ofList]
  have written : 0x2F ∈ Text.utf8 decoded := by
    rw [Text.utf8_eq]
    exact List.mem_flatMap.mpr ⟨'/', slash, by decide⟩
  rw [octets] at written
  rcases slash_of_mem_percentDecode piece written with plain | ⟨suffix, ends, escaped⟩
  · exact free plain
  · exact uncut suffix ends escaped

theorem mem_of_mem_splitEscapedSlashes {c : Char} {piece : List Char}
    (member : piece ∈ splitEscapedSlashes text) (listed : c ∈ piece) : c ∈ text := by
  induction text using escapedSlashInduction generalizing piece with
  | nil =>
    cases List.mem_singleton.mp member
    cases listed
  | cut mark rest slash ih =>
    rw [splitEscapedSlashes_cut slash] at member
    rcases List.mem_cons.mp member with rfl | later
    · cases listed
    · exact List.mem_append_right ['%', '2', mark] (ih later listed)
  | step c' rest other ih =>
    obtain ⟨first, others, split, -⟩ := exists_splitEscapedSlashes rest
    rw [splitEscapedSlashes_cons other split] at member
    rw [split] at ih
    rcases List.mem_cons.mp member with rfl | later
    · rcases List.mem_cons.mp listed with rfl | listed
      · exact List.mem_cons_self
      · exact List.mem_cons_of_mem _ (ih List.mem_cons_self listed)
    · exact List.mem_cons_of_mem _ (ih (List.mem_cons_of_mem _ later) listed)

theorem slash_not_mem_decodeSegment (free : '/' ∉ segment) : '/' ∉ decodeSegment segment := by
  intro slash
  simp only [decodeSegment] at slash
  split at slash
  · next decoded all =>
    obtain ⟨first, others, split, -, uncut⟩ := exists_splitEscapedSlashes segment
    rcases Text.mem_intercalate slash with joint | ⟨chars, listed, member⟩
    · exact absurd joint (by decide)
    · obtain ⟨text, made, rfl⟩ := List.mem_map.mp listed
      obtain ⟨piece, cut, reads⟩ := Outcome.exists_of_mem_mapM_some all made
      have free_piece : '/' ∉ piece := fun member => free (mem_of_mem_splitEscapedSlashes cut member)
      exact slash_not_mem_of_percentDecoded? free_piece (uncut piece (split ▸ cut)) reads member
  · exact free slash

/-- A segment without escaped slashes is decoded as a whole. -/
theorem decodeSegment_of_singleton {decoded : String}
    (single : splitEscapedSlashes segment = [segment])
    (reads : Text.percentDecoded? (String.ofList segment) = some decoded) :
    decodeSegment segment = decoded.toList := by
  rw [decodeSegment, single, List.mapM_cons, List.mapM_nil, reads]
  exact List.intercalate_singleton

theorem decodeSegment_of_not_mem (plain : '%' ∉ segment) : decodeSegment segment = segment := by
  have keeps : ∀ c ∈ segment, c ≠ '%' := by
    rintro c listed rfl
    exact plain listed
  have escaped : Text.Escaped (· ≠ '%') segment segment := .refl keeps
  have reads := escaped.percentDecoded? (by simp)
  rw [decodeSegment_of_singleton (splitEscapedSlashes_of_not_mem plain) reads, String.toList_ofList]

theorem not_escapedSlash_of_escapeOf {octet : UInt8} {escape rest : List Char}
    (writes : Text.EscapeOf octet escape) (other : octet ≠ 0x2F) :
    ¬ EscapedSlash (escape ++ rest) := by
  cases writes with
  | mk writes_high writes_low =>
    rintro ⟨mark, rest', slash, same⟩
    obtain ⟨rfl, behind⟩ := List.cons.inj (List.cons.inj same).2
    obtain ⟨rfl, -⟩ := List.cons.inj behind
    have pair := Text.hexPair?_of_writesDigit writes_high writes_low
    rcases slash with rfl | rfl
    · have value : Text.hexPair? 0x32 0x46 = some 0x2F := by decide
      exact other (Option.some.inj (pair.symm.trans value))
    · have value : Text.hexPair? 0x32 0x66 = some 0x2F := by decide
      exact other (Option.some.inj (pair.symm.trans value))

theorem splitEscapedSlashes_escapes {octets : Bytes} {escapes : List (List Char)} {rest : List Char}
    (each : List.Forall₂ Text.EscapeOf octets escapes) (free : 0x2F ∉ octets)
    (single : splitEscapedSlashes rest = [rest]) :
    splitEscapedSlashes (escapes.flatten ++ rest) = [escapes.flatten ++ rest] := by
  induction each with
  | nil => exact single
  | @cons octet escape octets escapes writes _ ih =>
    rw [List.mem_cons, not_or] at free
    have later : splitEscapedSlashes (escapes.flatten ++ rest) = [escapes.flatten ++ rest] :=
      ih free.2
    have uncut : ¬ EscapedSlash (escape ++ (escapes.flatten ++ rest)) :=
      not_escapedSlash_of_escapeOf writes (Ne.symm free.1)
    cases writes with
    | mk writes_high writes_low =>
      have no_sign : '%' ∉ Text.smallDigits ++ Text.capitalDigits := by decide
      have high_other := ne_of_mem_of_not_mem writes_high.mem no_sign
      have low_other := ne_of_mem_of_not_mem writes_low.mem no_sign
      rw [List.flatten_cons, List.append_assoc]
      exact splitEscapedSlashes_cons uncut
        (splitEscapedSlashes_cons (not_escapedSlash_of_ne high_other)
          (splitEscapedSlashes_cons (not_escapedSlash_of_ne low_other) later))

theorem splitEscapedSlashes_of_escaped (escaped : Text.Escaped kept text written)
    (signs : ¬ kept '%') (free : '/' ∉ text) : splitEscapedSlashes written = [written] := by
  induction escaped with
  | nil => rfl
  | @keep c text written keeps _ ih =>
    rw [List.mem_cons, not_or] at free
    have other : c ≠ '%' := by
      rintro rfl
      exact signs keeps
    exact splitEscapedSlashes_cons (not_escapedSlash_of_ne other) (ih free.2)
  | escape each _ ih =>
    rw [List.mem_cons, not_or] at free
    have slash_free := Text.not_mem_utf8EncodeChar '/' (by decide) (Ne.symm free.1)
    exact splitEscapedSlashes_escapes each slash_free (ih free.2)

/-- A segment is read again from all its escaped forms. -/
theorem decodeSegment_of_escaped (escaped : Text.Escaped kept text written)
    (signs : ¬ kept '%') (free : '/' ∉ text) : decodeSegment written = text := by
  have single := splitEscapedSlashes_of_escaped escaped signs free
  rw [decodeSegment_of_singleton single (escaped.percentDecoded? signs), String.toList_ofList]

end Decoding

section Paths

variable {f : List Char → List Char} {path : String}

theorem splitOn_mapSegments (keeps : ∀ segment, '/' ∉ segment → '/' ∉ f segment) (path : String) :
    (mapSegments f path).toList.splitOn '/' = (path.toList.splitOn '/').map f := by
  rw [mapSegments, String.toList_ofList]
  refine List.splitOn_intercalate '/' ?_ ?_
  · intro piece listed
    obtain ⟨segment, cut, rfl⟩ := List.mem_map.mp listed
    exact keeps segment (Text.of_mem_splitOn cut).1
  · exact fun none_left => List.splitOn_ne_nil '/' path.toList (List.map_eq_nil_iff.mp none_left)

theorem count_mapSegments (keeps : ∀ segment, '/' ∉ segment → '/' ∉ f segment) (path : String) :
    (mapSegments f path).toList.count '/' = path.toList.count '/' := by
  have pieces := congrArg List.length (splitOn_mapSegments keeps path)
  rw [List.length_map, Text.length_splitOn, Text.length_splitOn] at pieces
  omega

theorem mapSegments_eq_self
    (fixed : ∀ segment, (∀ c ∈ segment, c ∈ path.toList) → f segment = segment) :
    mapSegments f path = path := by
  have unchanged : (path.toList.splitOn '/').map f = path.toList.splitOn '/' := by
    calc (path.toList.splitOn '/').map f
        = (path.toList.splitOn '/').map id :=
          List.map_congr_left fun segment cut => fixed segment (Text.of_mem_splitOn cut).2
      _ = path.toList.splitOn '/' := List.map_id _
  rw [mapSegments, unchanged, List.intercalate_splitOn, String.ofList_toList]

theorem slash_not_mem_lookupSegment {segment : List Char} (free : '/' ∉ segment) :
    '/' ∉ lookupSegment segment :=
  slash_not_mem_decodeSegment fun slash => free ((List.takeWhile_sublist _).mem slash)

theorem lookupSegment_of_not_mem {segment : List Char} (plain : '%' ∉ segment) (whole : ';' ∉ segment) :
    lookupSegment segment = segment := by
  rw [lookupSegment, Text.upTo_eq_self whole, decodeSegment_of_not_mem plain]

/-- Nothing is lost when a path without escapes and semicolons is taken as it is. -/
theorem lookupPath_eq (request : Request) :
    request.lookupPath = mapSegments lookupSegment request.path := by
  rw [lookupPath]
  split
  · rfl
  · next plain =>
    simp only [Bool.or_eq_true, List.contains_iff_mem, not_or] at plain
    refine (mapSegments_eq_self fun segment within => ?_).symm
    exact lookupSegment_of_not_mem (fun sign => plain.1 (within _ sign))
      (fun mark => plain.2 (within _ mark))

theorem decodedPath_eq (request : Request) :
    request.decodedPath = mapSegments decodeSegment request.path := by
  rw [decodedPath]
  split
  · rfl
  · next plain =>
    rw [List.contains_iff_mem] at plain
    refine (mapSegments_eq_self fun segment within => ?_).symm
    exact decodeSegment_of_not_mem fun sign => plain (within _ sign)

end Paths

section Targets

variable {texts written : List String}

/-- A character of a path may stand for itself unless it begins an escape, matrix content or a query. -/
def KeptInPath (c : Char) : Prop :=
  c ≠ '%' ∧ c ≠ ';' ∧ c ≠ '?'

instance : DecidablePred KeptInPath := fun c =>
  inferInstanceAs (Decidable (c ≠ '%' ∧ c ≠ ';' ∧ c ≠ '?'))

theorem lookupSegment_of_escaped {text written : List Char}
    (escaped : Text.Escaped KeptInPath text written) (free : '/' ∉ text) :
    lookupSegment written = text := by
  have whole : ';' ∉ written := by
    intro mark
    rcases escaped.mem_cases mark with ⟨-, kept⟩ | digit
    · exact kept.2.1 rfl
    · exact absurd digit (by decide)
  have signs : ¬ KeptInPath '%' := fun kept => kept.1 rfl
  rw [lookupSegment, Text.upTo_eq_self whole, decodeSegment_of_escaped escaped signs free]

theorem slash_not_mem_of_escaped {text written : List Char}
    (escaped : Text.Escaped KeptInPath text written) (free : '/' ∉ text) : '/' ∉ written := by
  intro slash
  rcases escaped.mem_cases slash with ⟨listed, -⟩ | digit
  · exact free listed
  · exact absurd digit (by decide)

theorem toList_joined (nonempty : texts ≠ []) :
    ("/" ++ "/".intercalate texts).toList = ['/'].intercalate ([] :: texts.map String.toList) := by
  rw [List.intercalate_cons_of_ne_nil (by simpa using nonempty), String.toList_append,
    String.toList_intercalate]
  rfl

/-- A path of escaped segments is looked up by the segments. -/
theorem mapSegments_escaped (nonempty : texts ≠ [])
    (free : ∀ text ∈ texts, '/' ∉ text.toList)
    (escaped : List.Forall₂ (fun text written =>
      Text.Escaped KeptInPath text.toList written.toList) texts written) :
    mapSegments lookupSegment ("/" ++ "/".intercalate written) = "/" ++ "/".intercalate texts := by
  have pieces : (written.map String.toList).map lookupSegment = texts.map String.toList ∧
      ∀ piece ∈ written.map String.toList, '/' ∉ piece := by
    clear nonempty
    induction escaped with
    | nil => exact ⟨rfl, nofun⟩
    | cons here _ ih =>
      obtain ⟨free_here, free_rest⟩ := List.forall_mem_cons.mp free
      obtain ⟨same, apart⟩ := ih free_rest
      simp only [List.map_cons, List.forall_mem_cons]
      exact ⟨by rw [lookupSegment_of_escaped here free_here, same],
        slash_not_mem_of_escaped here free_here, apart⟩
  have written_nonempty : written ≠ [] := by
    rintro rfl
    cases escaped
    exact nonempty rfl
  have split : ("/" ++ "/".intercalate written).toList.splitOn '/' =
      [] :: written.map String.toList := by
    rw [toList_joined written_nonempty]
    exact List.splitOn_intercalate '/' (List.forall_mem_cons.mpr ⟨nofun, pieces.2⟩) (by simp)
  have empty : lookupSegment [] = [] := rfl
  rw [mapSegments, split, List.map_cons, pieces.1, empty, ← toList_joined nonempty,
    String.ofList_toList]

theorem question_not_mem_of_escaped {text written : List Char}
    (escaped : Text.Escaped KeptInPath text written) : '?' ∉ written := by
  intro mark
  rcases escaped.mem_cases mark with ⟨-, kept⟩ | digit
  · exact kept.2.2 rfl
  · exact absurd digit (by decide)

theorem question_not_mem_joined
    (escaped : List.Forall₂ (fun text written =>
      Text.Escaped KeptInPath text.toList written.toList) texts written) :
    '?' ∉ ("/" ++ "/".intercalate written).toList := by
  have free : ∀ piece ∈ written, '?' ∉ piece.toList := by
    induction escaped with
    | nil => exact nofun
    | cons here _ ih => exact List.forall_mem_cons.mpr ⟨question_not_mem_of_escaped here, ih⟩
  intro mark
  rw [String.toList_append, String.toList_intercalate, List.mem_append] at mark
  rcases mark with slash | within
  · exact absurd slash (by decide)
  · rcases Text.mem_intercalate within with slash | ⟨piece, listed, member⟩
    · exact absurd slash (by decide)
    · obtain ⟨text, written_text, rfl⟩ := List.mem_map.mp listed
      exact free text written_text member

/-- A target without a query is the path. -/
theorem fst_target_of_not_mem {uri : String} (free : '?' ∉ uri.toList) (nonempty : uri.toList ≠ []) :
    (RequestDraft.target uri).1 = uri := by
  simp only [RequestDraft.target, Text.splitOnce?_eq_none free, Option.getD_none]
  rw [if_neg (by simpa using nonempty), String.ofList_toList]

/-- A request made for another target differs in its path and its query only. -/
theorem build_for_target (draft : RequestDraft) (supplied : Uuid) (uri : String)
    (params : List (String × String)) :
    { draft with uri, params }.build supplied =
      (draft.build supplied).map fun request =>
        { request with path := (RequestDraft.target uri).1
                       query := (RequestDraft.target uri).2 ++ params } := by
  simp only [RequestDraft.build]
  cases Method.parse? draft.method with
  | none => simp only [Except.map]
  | some method =>
    dsimp only
    cases draft.headers.foldlM RequestDraft.addHeader draft.parsedHeaders with
    | error error => simp only [Except.map]
    | ok headers => simp only [Except.map]

theorem map_lookupPath_build (draft : RequestDraft) (supplied : Uuid) (uri : String) :
    ({ draft with uri }.build supplied).map lookupPath =
      (draft.build supplied).map fun _ => mapSegments lookupSegment (RequestDraft.target uri).1 := by
  rw [build_for_target draft supplied uri draft.params]
  cases draft.build supplied with
  | error error => simp only [Except.map]
  | ok request => simp only [Except.map, lookupPath_eq]

end Targets

/-- Every path is decoded segment by segment, whether or not the shortcuts apply: the looked-up path
and the decoded path have as many slashes as the path, and each of their pieces is made from the piece
in the same place.  And a target put together from escaped segments is looked up by the segments
themselves, in every request that can be made with it. -/
theorem lookupPath_by_segments :
    (∀ segment, '%' ∉ segment → decodeSegment segment = segment) ∧
    (∀ request : Request,
      (request.lookupPath = mapSegments lookupSegment request.path ∧
        request.decodedPath = mapSegments decodeSegment request.path) ∧
      (request.lookupPath.toList.splitOn '/' =
          (request.path.toList.splitOn '/').map lookupSegment ∧
        request.decodedPath.toList.splitOn '/' =
          (request.path.toList.splitOn '/').map decodeSegment) ∧
      request.lookupPath.toList.count '/' = request.path.toList.count '/' ∧
      request.decodedPath.toList.count '/' = request.path.toList.count '/') ∧
    ∀ texts written : List String, texts ≠ [] → (∀ text ∈ texts, '/' ∉ text.toList) →
      List.Forall₂ (fun text written =>
        Text.Escaped KeptInPath text.toList written.toList) texts written →
      ∀ (draft : RequestDraft) (supplied : Uuid),
        ({ draft with uri := "/" ++ "/".intercalate written }.build supplied).map lookupPath =
          (draft.build supplied).map fun _ => "/" ++ "/".intercalate texts := by
  refine ⟨fun segment => decodeSegment_of_not_mem, fun request => ?_, ?_⟩
  · have keeps_lookup (segment : List Char) : '/' ∉ segment → '/' ∉ lookupSegment segment :=
      slash_not_mem_lookupSegment
    have keeps_decode (segment : List Char) : '/' ∉ segment → '/' ∉ decodeSegment segment :=
      slash_not_mem_decodeSegment
    rw [lookupPath_eq, decodedPath_eq]
    exact ⟨⟨rfl, rfl⟩,
      ⟨splitOn_mapSegments keeps_lookup _, splitOn_mapSegments keeps_decode _⟩,
      count_mapSegments keeps_lookup _, count_mapSegments keeps_decode _⟩
  · intro texts written nonempty free escaped draft supplied
    have path : (RequestDraft.target ("/" ++ "/".intercalate written)).1 =
        "/" ++ "/".intercalate written :=
      fst_target_of_not_mem (question_not_mem_joined escaped) (by simp)
    rw [map_lookupPath_build, path, mapSegments_escaped nonempty free escaped]

/-- An accented letter and a percent sign, escaped in digits of either case. -/
theorem lookupPath_of_escaped_segments :
    let texts := ["é b", "50%"]
    let written := ["%c3%A9 b", "50%25"]
    let uri := "/" ++ "/".intercalate written
    (∀ text ∈ texts, '/' ∉ text.toList) ∧ '%' ∉ "50".toList ∧
      decodeSegment "50".toList = "50".toList ∧
      List.Forall₂ (fun text written =>
        Text.Escaped KeptInPath text.toList written.toList) texts written ∧
      ({ RequestDraft.blank with uri }.build ⟨[]⟩).map lookupPath = .ok "/é b/50%" := by
  intro texts written uri
  have free : ∀ text ∈ texts, '/' ∉ text.toList := by decide
  have accented : List.Forall₂ Text.EscapeOf (String.utf8EncodeChar 'é')
      [['%', 'c', '3'], ['%', 'A', '9']] :=
    .cons (.mk (.inl rfl) (.inl rfl)) (.cons (.mk (.inr rfl) (.inl rfl)) .nil)
  have sign : List.Forall₂ Text.EscapeOf (String.utf8EncodeChar '%') [['%', '2', '5']] :=
    .cons (.mk (.inl rfl) (.inl rfl)) .nil
  have first : Text.Escaped KeptInPath "é b".toList "%c3%A9 b".toList :=
    .escape accented (.keep (by decide) (.keep (by decide) .nil))
  have second : Text.Escaped KeptInPath "50%".toList "50%25".toList :=
    .keep (by decide) (.keep (by decide) (.escape sign .nil))
  have escaped : List.Forall₂ (fun text written =>
      Text.Escaped KeptInPath text.toList written.toList) texts written :=
    .cons first (.cons second .nil)
  refine ⟨free, by decide, lookupPath_by_segments.1 _ (by decide), escaped, ?_⟩
  exact lookupPath_by_segments.2.2 texts written (by decide) free escaped .blank ⟨[]⟩

end HttpRouting.Request
