import LanguageClient.Document.Position

/-!
# Document symbols

Symbols arrive nested, or flat with the name of the symbol that contains them, or mixed. Reading
visits the entries in order and decides for each which earlier one is its parent: in the nested
form the entry it stands in, in the flat form the latest earlier entry of the container's name that
encloses it, else the latest of that name. The forest is built from these decisions.
-/

namespace LanguageClient.Document

/-- A symbol without its children. -/
structure SymbolInfo where
  name : String
  detail : String
  kind : Option Int
  range : Range
deriving DecidableEq, Repr

/-- A symbol with the symbols inside it. -/
inductive Symbol where
  | node (info : SymbolInfo) (children : List Symbol)

namespace Symbol

/-- A visited entry, and the place of its parent among the visited ones. -/
structure Placed where
  info : SymbolInfo
  parent : Option Nat
deriving DecidableEq, Repr

/-- The range of an entry: its own, or that of its location. -/
def range? (entry : Json) : Option Range :=
  match entry.member? "range" with
  | some range => Range.ofJson? range
  | none => Range.ofJson? ((entry.get "location").get "range")

/-- Places, latest first, of the visited entries with a name. -/
def placesOf (name : String) (seen : List Placed) : List (Nat × Placed) :=
  ((seen.zipIdx.map fun (p, i) => (i, p)).filter (·.2.info.name = name)).reverse

/-- The container of a flat entry: the latest entry of that name that encloses the range, else the
latest one. -/
def container? (name : String) (range : Range) (seen : List Placed) : Option Nat :=
  let places := placesOf name seen
  ((places.find? (·.2.info.range.contains range)).or places.head?).map (·.1)

/-- What an entry says about its symbol. -/
def infoOf (entry : Json) (range : Range) : SymbolInfo :=
  { name := textMember entry "name", detail := textMember entry "detail"
    kind := (entry.get "kind").int32?, range := range }

/-- The parent of an entry: the entry it stands in, else its container. -/
def parentOf (entry : Json) (range : Range) (outer : Option Nat) (seen : List Placed) :
    Option Nat :=
  outer.or ((optionalText entry "containerName").bind fun name => container? name range seen)

theorem sizeOf_find?_lt {key : String} {members : Members} {j : Json}
    (h : Members.find? key members = some j) : sizeOf j < sizeOf members := by
  induction members with
  | nil => simp [Members.find?] at h
  | cons m rest ih =>
    obtain ⟨k, v⟩ := m
    simp only [Members.find?] at h
    split at h
    · simp only [Option.some.injEq] at h
      subst h
      simp only [List.cons.sizeOf_spec, Prod.mk.sizeOf_spec]
      omega
    · have := ih h
      simp only [List.cons.sizeOf_spec]
      omega

theorem sizeOf_items_get_lt {entry child : Json} {key : String}
    (h : child ∈ (entry.get key).items) : sizeOf child < sizeOf entry := by
  unfold Json.get Json.member? at h
  split at h
  · rename_i members
    cases hf : Members.find? key members with
    | none => simp [hf, Json.items, Json.arr?] at h
    | some j =>
      have := sizeOf_find?_lt hf
      simp only [hf, Option.getD_some, Json.items] at h
      cases j with
      | arr items =>
        simp only [Json.arr?, Option.getD_some] at h
        have := List.sizeOf_lt_of_mem h
        simp only [Json.obj.sizeOf_spec, Json.arr.sizeOf_spec] at *
        omega
      | _ => simp [Json.arr?] at h
  · simp [Json.items, Json.arr?] at h

/-- Visits an entry and those nested in it. Entries without a usable range are skipped with all
that is nested in them. -/
def visit (entry : Json) (outer : Option Nat) (seen : List Placed) : List Placed :=
  match range? entry with
  | none => seen
  | some range =>
      let here := seen.length
      let seen := seen ++ [⟨infoOf entry range, parentOf entry range outer seen⟩]
      (entry.get "children").items.attach.foldl
        (fun seen child => visit child.1 (some here) seen) seen
termination_by sizeOf entry
decreasing_by exact sizeOf_items_get_lt child.2

/-- All entries of a reply in visiting order. -/
def placed (j : Json) : List Placed :=
  j.items.foldl (fun seen entry => visit entry none seen) []

/-- The symbol at a place, with the later entries that name it as their parent. -/
def build (all : List Placed) (place : Nat) (p : Placed) : Symbol :=
  let later := (List.range all.length).filter (place < ·)
  .node p.info <| later.attach.filterMap fun i =>
    match h : all[i.1]? with
    | some q => if q.parent = some place then some (build all i.1 q) else none
    | none => none
termination_by all.length - place
decreasing_by
  have := i.2
  simp only [later, List.mem_filter, List.mem_range, decide_eq_true_eq] at this
  omega

/-- The forest of visited entries. -/
def forest (all : List Placed) : List Symbol :=
  (all.zipIdx.filter (·.1.parent.isNone)).map fun (p, i) => build all i p

/-- Reads the symbols of a reply. -/
def listOfJson (j : Json) : List Symbol := forest (placed j)

mutual

/-- Writes a symbol. -/
def toJson : Symbol → Json
  | .node info children => .mkObj
      [("name", .str info.name), ("detail", .str info.detail),
        ("kind", .ofOption .ofInt info.kind), ("range", info.range.toJson),
        ("children", .arr (listToJson children))]

/-- Writes symbols. -/
def listToJson : List Symbol → List Json
  | [] => []
  | s :: rest => s.toJson :: listToJson rest

end

end Symbol

end LanguageClient.Document
