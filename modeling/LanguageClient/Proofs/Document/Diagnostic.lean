import LanguageClient.Document.Params
import LanguageClient.Proofs.Document.Position
import LanguageClient.Proofs.Uri.Normal

/-!
# Diagnostics survive being echoed

A request for code actions carries the diagnostics that it is about back to the server. Whatever they were
read from, reading them off the request again gives the same list (`codeAction_echoes`).

This holds for whatever brings URIs to a normal form, as long as it leaves alone what it gives.

Reading is lenient and writing leaves members out, so values do not survive: numbers become text, entries
that cannot be read are gone. What survives is what was read. `Readable` says of a location and of a
diagnostic what that is: its ranges and its severity fit 32 bits, its URIs are in normal form, its source is
not an empty text, which stands for none. Only that is ever read, and all of it is read again.
-/

namespace LanguageClient.Document

variable {normal : Normalizer}

/-! ## Locations -/

/-- A location as it is read: in a document that the normalizer leaves alone. -/
structure Location.Readable (normal : Normalizer) (l : Location) : Prop where
  uri : normal l.uri = some l.uri
  range : l.range.Fits

theorem Location.readable_of_ofJson? (hnormal : ∀ raw uri, normal raw = some uri → normal uri = some uri)
    {j : Json} {l : Location} (h : Location.ofJson? normal j = some l) : l.Readable normal := by
  have huri : ∀ {j : Json} {uri : String}, uri? normal j = some uri → normal uri = some uri := by
    intro j uri h
    obtain ⟨raw, -, hraw⟩ := Option.bind_eq_some_iff.mp h
    exact hnormal raw uri hraw
  rw [Location.ofJson?] at h
  split at h
  next uri hfound =>
    -- a location proper
    obtain ⟨range, hrange, rfl⟩ := Option.map_eq_some_iff.mp h
    exact ⟨huri hfound, Range.fits_of_ofJson? hrange⟩
  next =>
    -- the target of a link, with the first of two ranges that can be read
    obtain ⟨uri, hfound, h⟩ := Option.bind_eq_some_iff.mp h
    obtain ⟨range, hrange, hl⟩ := Option.bind_eq_some_iff.mp h
    cases hl
    refine ⟨huri hfound, ?_⟩
    rcases Option.or_eq_some_iff.mp hrange with hselection | ⟨-, htarget⟩
    · exact Range.fits_of_ofJson? hselection
    · exact Range.fits_of_ofJson? htarget

theorem Location.ofJson?_toJson {l : Location} (h : l.Readable normal) :
    Location.ofJson? normal l.toJson = some l := by
  obtain ⟨hfirst, hsecond⟩ :=
    get_pair (by decide : "uri" ≠ "range") (.str l.uri) l.range.toJson
  have huri : uri? normal (.str l.uri) = some l.uri := h.uri
  rw [Location.ofJson?, Location.toJson, hfirst, hsecond, huri, Range.ofJson?_toJson h.range]
  rfl

theorem RelatedPlace.ofJson?_toJson {r : RelatedPlace} (h : r.location.Readable normal) :
    RelatedPlace.ofJson? normal r.toJson = some r := by
  obtain ⟨hfirst, hsecond⟩ := get_pair (by decide : "location" ≠ "message")
    r.location.toJson (.str r.message)
  rw [RelatedPlace.ofJson?, RelatedPlace.toJson, hfirst, Location.ofJson?_toJson h, textMember, hsecond]
  rfl

/-! ## Diagnostics as messages carry them -/

theorem Diagnostic.get_toWire (d : Diagnostic) (key : String) :
    d.toWire.get key =
      ((if "range" = key then some d.range.toJson
        else if "message" = key then some (.str d.message)
        else if "severity" = key then d.severity.map .ofInt
        else if "code" = key then d.code.map .str
        else if "source" = key then d.source.map .str
        else if "relatedInformation" = key then
          if d.related.isEmpty then none else some (.arr (d.related.map RelatedPlace.toJson))
        else none).getD .null) := by
  rw [toWire, Json.get_mkObj_of_nodup ?distinct]
  case distinct =>
    have hkeys : ["range", "message", "severity", "code", "source", "relatedInformation"].Nodup := by
      decide
    refine hkeys.sublist ?_
    simp only [List.map_append]
    exact (((((List.Sublist.refl ["range", "message"]).append (Members.keys_optional ..)).append
      (Members.keys_optional ..)).append (Members.keys_optional ..)).append (Members.keys_optional ..))
  refine congrArg (Option.getD · Json.null) ?_
  simp only [Members.find?_append, Members.find?_optional, Members.find?]
  by_cases hseverity : "severity" = key
  · subst hseverity
    simp
  by_cases hcode : "code" = key
  · subst hcode
    simp
  by_cases hsource : "source" = key
  · subst hsource
    simp
  simp only [if_neg hseverity, if_neg hcode, if_neg hsource, Option.or_none]
  split
  · rfl
  · split <;> rfl

/-- The related places are written as an array, also when there are none and the member is left out. -/
theorem Diagnostic.related_toWire (d : Diagnostic) :
    (d.toWire.get "relatedInformation").items = d.related.map RelatedPlace.toJson := by
  rw [get_toWire]
  cases hrelated : d.related with
  | nil => rfl
  | cons first rest => simp [Json.items, Json.arr?]

/-! ## Diagnostics that are read -/

/-- A diagnostic as it is read. -/
structure Diagnostic.Readable (normal : Normalizer) (d : Diagnostic) : Prop where
  range : d.range.Fits
  severity : ∀ i ∈ d.severity, -0x80000000 ≤ i ∧ i < 0x80000000
  source : d.source ≠ some ""
  related : ∀ r ∈ d.related, r.location.Readable normal

theorem Diagnostic.readable_of_ofJson? (hnormal : ∀ raw uri, normal raw = some uri → normal uri = some uri)
    {j : Json} {d : Diagnostic} (h : Diagnostic.ofJson? normal j = some d) : d.Readable normal := by
  obtain ⟨range, hrange, rfl⟩ := Option.map_eq_some_iff.mp h
  refine ⟨Range.fits_of_ofJson? hrange, fun i hi => (int32?_eq_some_iff.mp hi).2, fun hsource => ?_, fun r hr => ?_⟩
  · exact of_decide_eq_true (Option.filter_eq_some_iff.mp hsource).2 rfl
  · obtain ⟨j', -, hr⟩ := List.mem_filterMap.mp hr
    obtain ⟨l, hl, rfl⟩ := Option.map_eq_some_iff.mp hr
    exact Location.readable_of_ofJson? hnormal hl

theorem Diagnostic.ofJson?_toWire {d : Diagnostic} (h : d.Readable normal) :
    Diagnostic.ofJson? normal d.toWire = some d := by
  have hwire : ∀ key, d.toWire.get key = _ := d.get_toWire
  have hrange : Range.ofJson? (d.toWire.get "range") = some d.range := by
    rw [hwire]
    exact Range.ofJson?_toJson h.range
  have hseverity : (d.toWire.get "severity").int32? = d.severity := by
    rw [hwire]
    cases hsome : d.severity with
    | none => rfl
    | some i => exact if_pos (h.severity i hsome)
  have hcode : Diagnostic.code? (d.toWire.get "code") = d.code := by
    rw [hwire]
    cases d.code <;> rfl
  have hsource : optionalText d.toWire "source" = d.source := by
    rw [optionalText, hwire]
    cases hsome : d.source with
    | none => rfl
    | some s =>
        have hne : s ≠ "" := fun heq => h.source (heq ▸ hsome)
        exact (Option.filter_some ..).trans (if_pos (decide_eq_true hne))
  have hmessage : textMember d.toWire "message" = d.message := by
    rw [textMember, hwire]
    rfl
  have hrelated : (d.toWire.get "relatedInformation").items.filterMap (RelatedPlace.ofJson? normal) =
      d.related := by
    rw [d.related_toWire]
    exact filterMap_map_eq fun r hr => RelatedPlace.ofJson?_toJson (h.related r hr)
  rw [Diagnostic.ofJson?, hrange, hseverity, hcode, hsource, hmessage, hrelated]
  rfl

/-! ## The echo -/

theorem diagnostics_codeAction (uri : String) (range : Range) (kinds : List String)
    (diagnostics : List Diagnostic) :
    ((Params.codeAction uri range kinds diagnostics).get "context").get "diagnostics" =
      .arr (diagnostics.map Diagnostic.toWire) := by
  rw [Params.codeAction, Json.get_mkObj_of_nodup (by simp [Params.documentMember])]
  have hcontext : ∀ only, (Json.mkObj (("diagnostics", .arr (diagnostics.map Diagnostic.toWire)) ::
      Members.optional "only" only)).get "diagnostics" = .arr (diagnostics.map Diagnostic.toWire) := by
    intro only
    rw [Json.get_mkObj_of_nodup (by cases only <;> simp [Members.optional])]
    rfl
  exact hcontext _

/-- **Diagnostics survive being echoed.** Let a normalizer leave alone what it gives. Whatever value
diagnostics are read from, a request for code actions that carries them is read as the same diagnostics in
the same order. No others survive: a list does exactly if each of its diagnostics is readable. -/
theorem codeAction_echoes (hnormal : ∀ raw uri, normal raw = some uri → normal uri = some uri) (uri : String)
    (range : Range) (kinds : List String) :
    let read := Diagnostic.listOfJson normal
    let echo (diagnostics : List Diagnostic) :=
      ((Params.codeAction uri range kinds diagnostics).get "context").get "diagnostics"
    (∀ j, read (echo (read j)) = read j) ∧
      ∀ diagnostics, read (echo diagnostics) = diagnostics ↔ ∀ d ∈ diagnostics, d.Readable normal := by
  intro read echo
  have hreadable : ∀ j, ∀ d ∈ read j, d.Readable normal := by
    intro j d hd
    obtain ⟨j', -, hread⟩ := List.mem_filterMap.mp hd
    exact Diagnostic.readable_of_ofJson? hnormal hread
  have hecho : ∀ diagnostics, (∀ d ∈ diagnostics, d.Readable normal) →
      read (echo diagnostics) = diagnostics := by
    intro diagnostics h
    show read (((Params.codeAction uri range kinds diagnostics).get "context").get "diagnostics") = _
    rw [diagnostics_codeAction]
    exact filterMap_map_eq fun d hd => Diagnostic.ofJson?_toWire (h d hd)
  refine ⟨fun j => hecho _ (hreadable j), fun diagnostics => ⟨fun h d hd => ?_, hecho diagnostics⟩⟩
  exact hreadable (echo diagnostics) d (h.symm ▸ hd)

/-- A number as code, an empty source, a related place whose URI is brought to another form, and an entry
that cannot be read. -/
theorem codeAction_echoes_related :
    let normal : Normalizer := Uri.normalize (.ofTree { })
    let zero : Position := ⟨0, 0⟩
    let range : Range := ⟨zero, ⟨2, 5⟩⟩
    let place : Json := .obj [("range", range.toJson), ("uri", .str "file:///a/../b.c")]
    let problem : Json := .obj [("code", .num (.int 12)), ("message", .str "unused"),
      ("range", range.toJson), ("relatedInformation", .arr [.obj [("location", place)], .null]),
      ("source", .str "")]
    let read := Diagnostic.listOfJson normal
    let echo := ((Params.codeAction "file:///b.c" range [] (read (.arr [problem, .null]))).get
      "context").get "diagnostics"
    (∀ raw uri, normal raw = some uri → normal uri = some uri) ∧
      read (.arr [problem, .null]) =
        [⟨range, none, some "12", none, "unused", [⟨⟨"file:///b.c", range⟩, ""⟩]⟩] ∧
      read echo = read (.arr [problem, .null]) := by
  intro normal zero range place problem read echo
  have hnormal : ∀ raw uri, normal raw = some uri → normal uri = some uri :=
    fun _ _ => (Uri.Resolver.lawful_ofTree { }).normalize_eq
  exact ⟨hnormal, by decide +kernel, (codeAction_echoes hnormal "file:///b.c" range []).1 _⟩

end LanguageClient.Document
