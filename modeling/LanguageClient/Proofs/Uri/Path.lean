import LanguageClient.Proofs.Uri.Host

/-!
# Paths read again

Reading a path cuts it into segments, encodes them and resolves the dots. What is left is `Settled`: its
segments are encoded, none of them is a dot in any spelling, and none holds a separator. So the text of
the path is cut into the same segments (`pathSegments_parts`), and there is nothing left to resolve
(`resolveDots_settled`).
-/

namespace LanguageClient.Uri

/-! ## Segments -/

/-- Does the character separate segments? -/
def isSeparator (special : Bool) (c : Char) : Bool := c = '/' ∨ (special ∧ c = '\\')

/-- A segment that reading leaves alone. -/
structure Segment (special : Bool) (s : List Char) : Prop where
  encoded : Encoded pathSet s
  not_dot : isDot s = false
  not_dots : isDoubleDot s = false
  no_separator : ∀ c ∈ s, isSeparator special c = false

theorem pathSegments_eq (special : Bool) (cs : List Char) :
    pathSegments special cs = cs.splitOnP (isSeparator special) := by
  induction cs with
  | nil => rfl
  | cons c rest ih =>
      rw [List.splitOnP_cons_eq_if_modifyHead, pathSegments, ih]
      by_cases hc : c = '/' ∨ (special ∧ c = '\\')
      · rw [if_pos hc, if_pos (show isSeparator special c = true from decide_eq_true hc)]
      · rw [if_neg hc, if_neg (by simpa [isSeparator] using hc)]
        cases hparts : rest.splitOnP (isSeparator special) with
        | nil => exact absurd hparts (List.splitOnP_ne_nil _ rest)
        | cons part parts => rfl

theorem pathSegments_parts {special : Bool} {first : List Char} {rest : List (List Char)}
    (h : ∀ s ∈ first :: rest, Segment special s) :
    pathSegments special (first ++ rest.flatMap ('/' :: ·)) = first :: rest := by
  obtain ⟨hfirst, hrest⟩ := List.forall_mem_cons.mp h
  rw [pathSegments_eq]
  exact Text.splitOnP_parts (by simp [isSeparator]) hfirst.no_separator fun s hs => (hrest s hs).no_separator

/-! ## Dots -/

theorem toLower_beq {s : List Char} {t : String} :
    ((String.ofList s).toLower == t) = true ↔ s.map Char.toLower = t.toList := by
  have hlower : (String.ofList s).toLower.toList = s.map Char.toLower := by
    show ((String.ofList s).map Char.toLower).toList = _
    rw [String.toList_map, String.toList_ofList]
  rw [beq_iff_eq, ← String.toList_inj, hlower]

theorem isDot_iff {s : List Char} : isDot s = true ↔ s.map Char.toLower ∈ [['.'], ['%', '2', 'e']] := by
  show ((String.ofList s).toLower == "." || (String.ofList s).toLower == "%2e") = true ↔ _
  rw [Bool.or_eq_true, toLower_beq, toLower_beq]
  simp

theorem isDoubleDot_iff {s : List Char} : isDoubleDot s = true ↔ s.map Char.toLower ∈
    [['.', '.'], ['.', '%', '2', 'e'], ['%', '2', 'e', '.'], ['%', '2', 'e', '%', '2', 'e']] := by
  show ((String.ofList s).toLower == ".." || (String.ofList s).toLower == ".%2e" ||
    (String.ofList s).toLower == "%2e." || (String.ofList s).toLower == "%2e%2e") = true ↔ _
  rw [Bool.or_eq_true, Bool.or_eq_true, Bool.or_eq_true, toLower_beq, toLower_beq, toLower_beq, toLower_beq]
  simp [or_assoc]

theorem segment_nil (special : Bool) : Segment special [] where
  encoded := fun c hc => absurd hc List.not_mem_nil
  not_dot := Bool.eq_false_iff.mpr fun h => absurd (isDot_iff.mp h) (by simp)
  not_dots := Bool.eq_false_iff.mpr fun h => absurd (isDoubleDot_iff.mp h) (by simp)
  no_separator := fun c hc => absurd hc List.not_mem_nil

theorem leaveSegment_subset (done : List (List Char)) : leaveSegment done ⊆ done := by
  cases done with
  | nil => exact List.Subset.refl _
  | cons last front =>
      show (if isDriveName last then last :: front else front) ⊆ last :: front
      split
      · exact List.Subset.refl _
      · exact List.subset_cons_self last front

theorem resolveDots_segment {special : Bool} {parts done : List (List Char)}
    (hparts : ∀ part ∈ parts, ∀ c ∈ part, isSeparator special c = false)
    (hdone : ∀ s ∈ done, Segment special s) :
    (∀ s ∈ resolveDots done parts, Segment special s) ∧ (parts ≠ [] → resolveDots done parts ≠ []) := by
  have hencoded : ∀ part : List Char, (∀ c ∈ part, isSeparator special c = false) →
      isDot (percentEncode pathSet part) = false → isDoubleDot (percentEncode pathSet part) = false →
      Segment special (percentEncode pathSet part) := by
    intro part hpart hdot hdots
    have hkeeps : KeepsEscapes (isSeparator special) := by cases special <;> decide
    exact ⟨encoded_percentEncode (by decide) part, hdot, hdots, forall_mem_percentEncode hkeeps hpart⟩
  have hleave : ∀ {done : List (List Char)}, (∀ s ∈ done, Segment special s) →
      ∀ s ∈ leaveSegment done, Segment special s :=
    fun hdone s hs => hdone s (leaveSegment_subset _ hs)
  induction parts generalizing done with
  | nil => exact ⟨hdone, fun h => absurd rfl h⟩
  | cons part rest ih =>
      obtain ⟨hpart, hrest⟩ := List.forall_mem_cons.mp hparts
      cases rest with
      | nil =>
          rw [resolveDots]
          split
          · exact ⟨List.forall_mem_cons.mpr ⟨segment_nil special, hleave hdone⟩,
              fun _ => List.cons_ne_nil _ _⟩
          next hdots =>
          split
          · exact ⟨List.forall_mem_cons.mpr ⟨segment_nil special, hdone⟩, fun _ => List.cons_ne_nil _ _⟩
          next hdot =>
          have hsegment := hencoded part hpart (Bool.eq_false_iff.mpr hdot) (Bool.eq_false_iff.mpr hdots)
          exact ⟨List.forall_mem_cons.mpr ⟨hsegment, hdone⟩, fun _ => List.cons_ne_nil _ _⟩
      | cons next rest =>
          have hmore : ∀ {done : List (List Char)}, (∀ s ∈ done, Segment special s) →
              (∀ s ∈ resolveDots done (next :: rest), Segment special s) ∧
                (part :: next :: rest ≠ [] → resolveDots done (next :: rest) ≠ []) :=
            fun hdone => ⟨(ih hrest hdone).1, fun _ => (ih hrest hdone).2 (List.cons_ne_nil _ _)⟩
          rw [resolveDots]
          · split
            · exact hmore (hleave hdone)
            next hdots =>
            split
            · exact hmore hdone
            next hdot =>
            have hsegment := hencoded part hpart (Bool.eq_false_iff.mpr hdot) (Bool.eq_false_iff.mpr hdots)
            exact hmore (List.forall_mem_cons.mpr ⟨hsegment, hdone⟩)
          · exact nofun

/-- Settled segments have no dots to resolve. -/
theorem resolveDots_settled {special : Bool} {segments : List (List Char)}
    (h : ∀ s ∈ segments, Segment special s) (done : List (List Char)) :
    resolveDots done segments = segments.reverse ++ done := by
  induction segments generalizing done with
  | nil => rfl
  | cons s rest ih =>
      obtain ⟨hs, hrest⟩ := List.forall_mem_cons.mp h
      cases rest with
      | nil =>
          rw [resolveDots, hs.encoded.percentEncode_eq, hs.not_dots, hs.not_dot]
          rfl
      | cons next rest =>
          rw [resolveDots, hs.encoded.percentEncode_eq, hs.not_dots, hs.not_dot, if_neg Bool.false_ne_true,
            if_neg Bool.false_ne_true, ih hrest]
          · simp
          · exact nofun

/-! ## Paths -/

/-- A path of segments that reading leaves alone. A special scheme has some. -/
inductive UrlPath.Settled (special : Bool) : UrlPath → Prop where
  | empty : special = false → Settled special (.segments [])
  | filled {first : List Char} {rest : List (List Char)} :
      (∀ s ∈ first :: rest, Segment special s) → Settled special (.segments (first :: rest))

theorem segmentsOf_cases (special : Bool) (text : List Char) : ∃ first rest,
    segmentsOf special text = .segments (first :: rest) ∧ ∀ s ∈ first :: rest, Segment special s := by
  have hparts : ∀ part ∈ pathSegments special text, ∀ c ∈ part, isSeparator special c = false := by
    intro part hpart c hc
    rw [pathSegments_eq] at hpart
    exact (Text.mem_part hpart c hc).2
  have hne : pathSegments special text ≠ [] := by
    rw [pathSegments_eq]
    exact List.splitOnP_ne_nil _ text
  have hempty : ∀ s ∈ ([] : List (List Char)), Segment special s := fun s hs => absurd hs List.not_mem_nil
  obtain ⟨hsegment, hsome⟩ := resolveDots_segment hparts hempty
  rw [segmentsOf]
  cases hresolved : (resolveDots [] (pathSegments special text)).reverse with
  | nil => exact absurd (List.reverse_eq_nil_iff.mp hresolved) (hsome hne)
  | cons first rest =>
      refine ⟨first, rest, rfl, fun s hs => hsegment s ?_⟩
      exact List.mem_reverse.mp (hresolved ▸ hs)

theorem segmentsOf_settled (special : Bool) (text : List Char) :
    (segmentsOf special text).Settled special := by
  obtain ⟨first, rest, hpath, hsegments⟩ := segmentsOf_cases special text
  exact hpath ▸ .filled hsegments

theorem head?_segmentsOf (special : Bool) (text : List Char) :
    (segmentsOf special text).chars.head? = some '/' := by
  obtain ⟨first, rest, hpath, -⟩ := segmentsOf_cases special text
  rw [hpath]
  rfl

theorem segmentsOf_parts {special : Bool} {first : List Char} {rest : List (List Char)}
    (h : ∀ s ∈ first :: rest, Segment special s) :
    segmentsOf special (first ++ rest.flatMap ('/' :: ·)) = .segments (first :: rest) := by
  rw [segmentsOf, pathSegments_parts h, resolveDots_settled h, List.append_nil, List.reverse_reverse]

theorem pathAfterAuthority_settled (special : Bool) (text : List Char) :
    (pathAfterAuthority special text).Settled special := by
  cases text with
  | nil =>
      cases special with
      | false => exact .empty rfl
      | true => exact .filled fun s hs => List.mem_singleton.mp hs ▸ segment_nil true
  | cons c rest =>
      rw [pathAfterAuthority]
      split
      · exact segmentsOf_settled special rest
      · exact segmentsOf_settled special (c :: rest)

namespace UrlPath.Settled

variable {special : Bool} {path : UrlPath}

theorem pathAfterAuthority_eq (h : path.Settled special) : pathAfterAuthority special path.chars = path := by
  cases h with
  | empty hspecial =>
      subst hspecial
      rfl
  | filled hsegments =>
      rw [UrlPath.chars, List.flatMap_cons, List.cons_append, pathAfterAuthority, if_pos (Or.inl rfl),
        segmentsOf_parts hsegments]

/-- A settled path is read again behind a dot. -/
theorem segmentsOf_dot (h : path.Settled special) (hne : path.chars ≠ []) :
    segmentsOf special ('.' :: path.chars) = path := by
  cases h with
  | empty => exact absurd rfl hne
  | @filled first rest hsegments =>
      have hcut : pathSegments special (['.'] ++ (first :: rest).flatMap ('/' :: ·)) =
          ['.'] :: first :: rest := by
        rw [pathSegments_eq]
        refine Text.splitOnP_parts (by simp [isSeparator]) ?_ fun s hs => (hsegments s hs).no_separator
        cases special <;> exact Text.forall_mem_of_all (by decide)
      have hplain : percentEncode pathSet ['.'] = ['.'] := by decide
      have hdot : isDot ['.'] = true := isDot_iff.mpr (by decide)
      have hdots : ¬ isDoubleDot ['.'] = true := fun hdots => absurd (isDoubleDot_iff.mp hdots) (by decide)
      show UrlPath.segments
        (resolveDots [] (pathSegments special (['.'] ++ (first :: rest).flatMap _))).reverse = _
      rw [hcut, resolveDots, hplain, if_neg hdots, if_pos hdot, resolveDots_settled hsegments,
        List.append_nil, List.reverse_reverse]
      exact nofun

theorem head?_chars (h : path.Settled special) : path.chars = [] ∨ path.chars.head? = some '/' := by
  cases h with
  | empty => exact Or.inl rfl
  | filled => exact Or.inr rfl

theorem frontChar (h : path.Settled special) : ∀ c ∈ path.chars, FrontChar c := by
  have hparts : ∀ segments : List (List Char), (∀ s ∈ segments, Segment special s) →
      ∀ c ∈ (UrlPath.segments segments).chars, FrontChar c := by
    intro segments hsegments c hc
    obtain ⟨s, hs, hc⟩ := List.mem_flatMap.mp hc
    rcases List.mem_cons.mp hc with rfl | hc
    · decide
    · exact (hsegments s hs).encoded.forall_mem (by decide +kernel) c hc
  cases h with
  | empty => exact hparts [] fun s hs => absurd hs List.not_mem_nil
  | filled hsegments => exact hparts _ hsegments

end UrlPath.Settled

end LanguageClient.Uri
