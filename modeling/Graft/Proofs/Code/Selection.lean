import Graft.Proofs.Code.Anatomy
import Graft.Proofs.Code.Resolution
import Mathlib.Data.List.Forall2
import Mathlib.Data.List.Induction
import Mathlib.Data.List.Pairwise
import Mathlib.Data.List.Sort

/-!
What a list of identifiers selects in a text. `Refuses` says why an identifier cannot follow on the
definitions that are chosen before it. A list is located exactly when each identifier resolves and the
definitions come in the order of the text; otherwise the first identifier that is refused makes the
error (`locate_of_discover`). The order is checked by the bytes of the spans, and that this is the order
of the definitions rests on these lying apart.
-/

namespace Graft.Code

/-! The order of definitions -/

instance : Std.Antisymm Definition.Precedes where
  antisymm _ _ first second := absurd second.starts (Nat.lt_asymm first.starts)

instance : IsTrans Definition Definition.Precedes where
  trans _ _ _ first second :=
    ⟨Nat.lt_trans first.starts second.starts, Nat.le_trans first.apart (Nat.le_of_lt second.starts)⟩

instance : Std.Irrefl Definition.Precedes where
  irrefl _ self := Nat.lt_irrefl _ self.starts

section
variable {definitions chosen : List Definition} {definition other : Definition}

theorem precedes_or_precedes (inOrder : InOrder definitions)
    (first : definition ∈ definitions) (second : other ∈ definitions) (different : definition ≠ other) :
    definition.Precedes other ∨ other.Precedes definition := by
  have symmetric : Std.Symm fun a b : Definition => a.Precedes b ∨ b.Precedes a :=
    ⟨fun _ _ => Or.symm⟩
  have either : definitions.Pairwise fun a b => a.Precedes b ∨ b.Precedes a := inOrder.ordered.imp .inl
  exact either.forall first second different

theorem eq_of_start_eq (inOrder : InOrder definitions)
    (first : definition ∈ definitions) (second : other ∈ definitions)
    (same : definition.start = other.start) : definition = other := by
  by_contra different
  obtain before | behind := precedes_or_precedes inOrder first second different
  · exact absurd before.starts (same ▸ Nat.lt_irrefl _)
  · exact absurd behind.starts (same ▸ Nat.lt_irrefl _)

/-- Definitions of a text come in its order exactly when they lie one behind the other. -/
theorem sublist_iff_pairwise (inOrder : InOrder definitions) :
    chosen.Sublist definitions ↔ chosen ⊆ definitions ∧ chosen.Pairwise Definition.Precedes := by
  constructor
  · exact fun part => ⟨part.subset, inOrder.ordered.sublist part⟩
  · rintro ⟨part, behind⟩
    exact List.sublist_of_subperm_of_pairwise (List.subperm_of_subset behind.nodup part) behind
      inOrder.ordered

theorem pair_sublist_iff (inOrder : InOrder definitions)
    (first : definition ∈ definitions) (second : other ∈ definitions) :
    [definition, other].Sublist definitions ↔ definition.Precedes other := by
  simp [sublist_iff_pairwise inOrder, first, second]

/-- One more definition goes behind those that are chosen when it goes behind the last of them. -/
theorem append_sublist_iff (inOrder : InOrder definitions)
    (part : chosen.Sublist definitions) (member : definition ∈ definitions) :
    (chosen ++ [definition]).Sublist definitions ↔
      ∀ last, chosen.getLast? = some last → last.Precedes definition := by
  constructor
  · intro longer last latest
    obtain ⟨-, -, across⟩ := List.pairwise_append.1 (inOrder.ordered.sublist longer)
    exact across last (List.mem_of_getLast? latest) definition (List.mem_singleton_self _)
  · intro behind
    have chosenOrdered := inOrder.ordered.sublist part
    refine (sublist_iff_pairwise inOrder).2 ⟨by simp [part.subset, member], ?_⟩
    have all : ∀ earlier ∈ chosen, earlier.Precedes definition := by
      intro earlier early
      obtain rfl | ⟨front, last, rfl⟩ := List.eq_nil_or_concat' chosen
      · cases early
      have lastBehind := behind last List.getLast?_concat
      obtain ahead | same := List.mem_append.1 early
      · have across := (List.pairwise_append.1 chosenOrdered).2.2
        exact Trans.trans (across earlier ahead last (List.mem_singleton_self _)) lastBehind
      · exact List.mem_singleton.1 same ▸ lastBehind
    refine List.pairwise_append.2 ⟨chosenOrdered, List.pairwise_singleton _ _, ?_⟩
    simpa using all

end

/-! One step -/

def spansOf (chosen : List Definition) : List Span :=
  chosen.mapIdx fun index definition => ⟨index + 1, definition.start, definition.stop⟩

theorem spansOf_append (chosen : List Definition) (definition : Definition) :
    spansOf (chosen ++ [definition]) =
      spansOf chosen ++ [⟨chosen.length + 1, definition.start, definition.stop⟩] := by
  simp [spansOf, List.mapIdx_append]

theorem length_spansOf (chosen : List Definition) : (spansOf chosen).length = chosen.length := by
  simp [spansOf]

theorem any_spansOf (chosen : List Definition) (holds : Nat → Bool) :
    (spansOf chosen).any (holds ·.start) = chosen.any (holds ·.start) := by
  induction chosen using List.reverseRecOn with
  | nil => rfl
  | append_singleton front last ih => simp [spansOf_append, ih]

theorem stop_getLast?_spansOf (chosen : List Definition) :
    (spansOf chosen).getLast?.map Span.stop = chosen.getLast?.map Definition.stop := by
  induction chosen using List.reverseRecOn with
  | nil => rfl
  | append_singleton front last _ => simp [spansOf_append]

/-- Why an identifier cannot follow on definitions that are chosen already. A definition that is among
these is chosen twice, also where it lies in front of the one chosen last. -/
inductive Refuses (definitions chosen : List Definition) (identifier : String) : LocateError → Prop
  | unresolved {error : LocateError} (resolves : ResolvesTo definitions identifier (.error error)) :
      Refuses definitions chosen identifier error
  | again {definition : Definition} (resolves : ResolvesTo definitions identifier (.ok definition))
      (member : definition ∈ chosen) : Refuses definitions chosen identifier (.duplicate identifier)
  | ahead {definition last : Definition}
      (resolves : ResolvesTo definitions identifier (.ok definition)) (fresh : definition ∉ chosen)
      (latest : chosen.getLast? = some last) (order : [definition, last].Sublist definitions) :
      Refuses definitions chosen identifier (.outOfOrder identifier)

section
variable {definitions chosen : List Definition} {identifier : String} {definition : Definition}

/-- An identifier either is refused or resolves to a definition behind the chosen ones. -/
theorem refuses_or_follows (inOrder : InOrder definitions)
    (part : chosen.Sublist definitions) (identifier : String) :
    (∃ error, Refuses definitions chosen identifier error) ∨
      ∃ definition, ResolvesTo definitions identifier (.ok definition) ∧
        (chosen ++ [definition]).Sublist definitions := by
  have resolves := resolvesTo_resolve definitions identifier
  cases hresolve : resolve definitions identifier with
  | error error => exact .inl ⟨error, .unresolved (hresolve ▸ resolves)⟩
  | ok definition =>
      rw [hresolve] at resolves
      by_cases again : definition ∈ chosen
      · exact .inl ⟨_, .again resolves again⟩
      by_cases behind : ∀ last, chosen.getLast? = some last → last.Precedes definition
      · exact .inr ⟨definition, resolves, (append_sublist_iff inOrder part resolves.mem).2 behind⟩
      · -- It lies in front of the last one, since definitions that differ lie apart.
        push Not at behind
        obtain ⟨last, latest, notBehind⟩ := behind
        have chosenLast := List.mem_of_getLast? latest
        have different : definition ≠ last := fun same => again (same ▸ chosenLast)
        have ahead := (precedes_or_precedes inOrder resolves.mem (part.subset chosenLast)
          different).resolve_right notBehind
        exact .inl ⟨_, .ahead resolves again latest
          ((pair_sublist_iff inOrder resolves.mem (part.subset chosenLast)).2 ahead)⟩

theorem any_start_spansOf (inOrder : InOrder definitions)
    (part : chosen ⊆ definitions) (member : definition ∈ definitions) :
    (spansOf chosen).any (·.start == definition.start) = true ↔ definition ∈ chosen := by
  rw [any_spansOf chosen (· == definition.start), List.any_eq_true]
  constructor
  · rintro ⟨other, chosenOther, same⟩
    have equal := eq_of_start_eq inOrder (part chosenOther) member (by simpa using same)
    exact equal ▸ chosenOther
  · exact fun again => ⟨definition, again, by simp⟩

theorem any_stop_spansOf :
    (spansOf chosen).getLast?.any (definition.start < ·.stop) = true ↔
      ∃ last, chosen.getLast? = some last ∧ definition.start < last.stop := by
  have same : (spansOf chosen).getLast?.any (definition.start < ·.stop) =
      (chosen.getLast?.map Definition.stop).any (definition.start < ·) := by
    rw [← stop_getLast?_spansOf, Option.any_map]
  rw [same, Option.any_map, Option.any_eq_true]
  simp

/-- A refused identifier makes its error. -/
theorem locateFrom_of_refuses (inOrder : InOrder definitions)
    (part : chosen.Sublist definitions) {error : LocateError}
    (refuses : Refuses definitions chosen identifier error) (rest : List String) :
    locateFrom definitions (spansOf chosen) (identifier :: rest) = .error error := by
  unfold locateFrom
  cases refuses with
  | unresolved resolves => rw [resolves.resolve_eq]; rfl
  | again resolves member =>
      rw [resolves.resolve_eq]
      have again := (any_start_spansOf inOrder part.subset resolves.mem).2 member
      simp [bind, Except.bind, again]
  | @ahead definition last resolves fresh latest order =>
      rw [resolves.resolve_eq]
      have new : (spansOf chosen).any (·.start == definition.start) = false :=
        Bool.eq_false_iff.2 (mt (any_start_spansOf inOrder part.subset resolves.mem).1 fresh)
      have member := part.subset (List.mem_of_getLast? latest)
      have before := (pair_sublist_iff inOrder resolves.mem member).1 order
      have inFront := Nat.lt_trans before.starts (inOrder.forwards last member)
      have ahead := any_stop_spansOf.2 ⟨last, latest, inFront⟩
      simp [bind, Except.bind, new, ahead]

/-- An identifier that resolves to a definition behind the chosen ones adds the span of it. -/
theorem locateFrom_of_follows (inOrder : InOrder definitions)
    (resolves : ResolvesTo definitions identifier (.ok definition))
    (longer : (chosen ++ [definition]).Sublist definitions) (rest : List String) :
    (locateFrom definitions (spansOf chosen) (identifier :: rest)).map (spansOf chosen ++ ·) =
      (locateFrom definitions (spansOf (chosen ++ [definition])) rest).map
        (spansOf (chosen ++ [definition]) ++ ·) := by
  have part := (List.sublist_append_left chosen [definition]).trans longer
  have behind := (append_sublist_iff inOrder part resolves.mem).1 longer
  have fresh : definition ∉ chosen := by
    intro again
    have across := (List.pairwise_append.1 (inOrder.ordered.sublist longer)).2.2
    have self := across definition again definition (List.mem_singleton_self _)
    exact Std.Irrefl.irrefl definition self
  have new : (spansOf chosen).any (·.start == definition.start) = false :=
    Bool.eq_false_iff.2 (mt (any_start_spansOf inOrder part.subset resolves.mem).1 fresh)
  have later : (spansOf chosen).getLast?.any (definition.start < ·.stop) = false := by
    refine Bool.eq_false_iff.2 (mt any_stop_spansOf.1 ?_)
    rintro ⟨last, latest, early⟩
    exact absurd early (Nat.not_lt.2 (behind last latest).apart)
  have step : locateFrom definitions (spansOf chosen) (identifier :: rest) =
      (locateFrom definitions (spansOf (chosen ++ [definition])) rest).map
        (⟨chosen.length + 1, definition.start, definition.stop⟩ :: ·) := by
    rw [locateFrom, resolves.resolve_eq, spansOf_append, length_spansOf]
    simp only [bind, Except.bind, new, later, Bool.false_eq_true, if_false]
    rfl
  rw [step, spansOf_append]
  cases locateFrom definitions _ rest with
  | error error => rfl
  | ok spans => simp [Except.map]

/-! A list of identifiers -/

def AllResolveTo (definitions : List Definition) : List String → List Definition → Prop :=
  List.Forall₂ fun identifier definition => ResolvesTo definitions identifier (.ok definition)

/-- Whether identifiers choose definitions: each of them resolves to its definition, and the definitions
come in the order of the text. -/
structure Chooses (definitions : List Definition) (identifiers : List String)
    (chosen : List Definition) : Prop where
  resolved : AllResolveTo definitions identifiers chosen
  ordered : chosen.Sublist definitions

/-- Identifiers that resolve to definitions behind the chosen ones add the spans of them. -/
theorem locateFrom_of_resolved (inOrder : InOrder definitions) (chosen : List Definition)
    {identifiers : List String} {more : List Definition}
    (resolved : AllResolveTo definitions identifiers more)
    (longer : (chosen ++ more).Sublist definitions) (rest : List String) :
    (locateFrom definitions (spansOf chosen) (identifiers ++ rest)).map (spansOf chosen ++ ·) =
      (locateFrom definitions (spansOf (chosen ++ more)) rest).map (spansOf (chosen ++ more) ++ ·) := by
  -- The chosen definitions grow by one at each identifier, and their spans with them.
  induction resolved generalizing chosen with
  | nil => simp
  | @cons identifier definition identifiers more resolves _ ih =>
      rw [List.append_cons] at longer ⊢
      rw [List.cons_append, locateFrom_of_follows inOrder resolves
        ((List.sublist_append_left _ more).trans longer)]
      exact ih _ longer

/-- Identifiers either choose definitions, or some first one of them is refused. -/
theorem chooses_or_refuses (inOrder : InOrder definitions) (part : chosen.Sublist definitions)
    (identifiers : List String) :
    (∃ more, AllResolveTo definitions identifiers more ∧ (chosen ++ more).Sublist definitions) ∨
      ∃ front identifier behind more error, identifiers = front ++ identifier :: behind ∧
        AllResolveTo definitions front more ∧ (chosen ++ more).Sublist definitions ∧
        Refuses definitions (chosen ++ more) identifier error := by
  induction identifiers generalizing chosen with
  | nil => exact .inl ⟨[], .nil, by simpa using part⟩
  | cons identifier rest ih =>
      obtain ⟨error, refuses⟩ | ⟨definition, resolves, longer⟩ :=
        refuses_or_follows inOrder part identifier
      · exact .inr ⟨[], identifier, rest, [], error, rfl, .nil, by simpa using part,
          by simpa using refuses⟩
      · obtain ⟨more, resolved, whole⟩ | ⟨front, refused, behind, more, error, rfl, resolved, whole,
          refuses⟩ := ih longer
        · exact .inl ⟨definition :: more, .cons resolves resolved, by simpa using whole⟩
        · exact .inr ⟨identifier :: front, refused, behind, definition :: more, error, rfl,
            .cons resolves resolved, by simpa using whole, by simpa using refuses⟩

end

section
variable {text : String} {definitions chosen : List Definition}

theorem locate_eq_locateFrom (found : discover text = .ok definitions) (identifiers : List String) :
    locate text identifiers =
      (locateFrom definitions (spansOf []) identifiers).map (spansOf [] ++ ·) := by
  rw [locate, found]
  exact (congrFun Except.map_id (locateFrom definitions [] identifiers)).symm

/-- Identifiers that choose definitions are located at these. -/
theorem locate_of_chooses (found : discover text = .ok definitions) {identifiers : List String}
    (chooses : Chooses definitions identifiers chosen) :
    locate text identifiers = .ok (spansOf chosen) := by
  have located := locateFrom_of_resolved (inOrder_of_discover found) [] chooses.resolved
    chooses.ordered []
  rw [List.append_nil] at located
  rw [locate_eq_locateFrom found, located]
  simp [locateFrom, Except.map]

/-- The first identifier that is refused makes the error. -/
theorem locate_of_refuses (found : discover text = .ok definitions) {front : List String}
    (chooses : Chooses definitions front chosen) {identifier : String} {error : LocateError}
    (refuses : Refuses definitions chosen identifier error) (behind : List String) :
    locate text (front ++ identifier :: behind) = .error error := by
  have inOrder := inOrder_of_discover found
  have located := locateFrom_of_resolved inOrder [] chooses.resolved chooses.ordered
    (identifier :: behind)
  rw [List.nil_append] at located
  rw [locate_eq_locateFrom found, located, locateFrom_of_refuses inOrder chooses.ordered refuses]
  rfl

/-- What is located are the spans of the definitions that the identifiers choose. -/
theorem chooses_of_locate (found : discover text = .ok definitions) {identifiers : List String}
    {spans : List Span} (located : locate text identifiers = .ok spans) :
    ∃ chosen, Chooses definitions identifiers chosen ∧ spans = spansOf chosen := by
  obtain ⟨chosen, resolved, ordered⟩ | ⟨front, identifier, behind, chosen, error, rfl, resolved,
    ordered, refuses⟩ :=
      chooses_or_refuses (inOrder_of_discover found) (List.nil_sublist definitions) identifiers
  · have chooses : Chooses definitions identifiers chosen := ⟨resolved, ordered⟩
    rw [locate_of_chooses found chooses] at located
    exact ⟨chosen, chooses, (Except.ok.inj located).symm⟩
  · rw [locate_of_refuses found ⟨resolved, ordered⟩ refuses] at located
    cases located

/-- Identifiers are located exactly when each of them resolves and the definitions that they resolve to
come in the order of the text, and then at these definitions. They are refused exactly with the error
of the first identifier that does not resolve, or resolves to a definition that was chosen before it, or
else to one in front of the definition chosen last. -/
theorem locate_of_discover (found : discover text = .ok definitions) (identifiers : List String) :
    (∀ spans, locate text identifiers = .ok spans ↔
      ∃ chosen, Chooses definitions identifiers chosen ∧ spans = spansOf chosen) ∧
    ∀ error, locate text identifiers = .error error ↔
      ∃ front identifier behind chosen, identifiers = front ++ identifier :: behind ∧
        Chooses definitions front chosen ∧ Refuses definitions chosen identifier error := by
  refine ⟨fun spans => ⟨chooses_of_locate found, ?_⟩, fun error => ⟨fun located => ?_, ?_⟩⟩
  · rintro ⟨chosen, chooses, rfl⟩
    exact locate_of_chooses found chooses
  · obtain ⟨chosen, resolved, ordered⟩ | ⟨front, identifier, behind, chosen, other, rfl, resolved,
      ordered, refuses⟩ :=
        chooses_or_refuses (inOrder_of_discover found) (List.nil_sublist definitions) identifiers
    · rw [locate_of_chooses found ⟨resolved, ordered⟩] at located
      cases located
    · rw [locate_of_refuses found ⟨resolved, ordered⟩ refuses] at located
      obtain rfl := Except.error.inj located
      exact ⟨front, identifier, behind, chosen, rfl, ⟨resolved, ordered⟩, refuses⟩
  · rintro ⟨front, identifier, behind, chosen, rfl, chooses, refuses⟩
    exact locate_of_refuses found chooses refuses behind

/-- Functions that answer to one name: in the order of the text they are located by number and by
qualification, and the first of them cannot follow on a later one. -/
theorem locate_of_discover_overloads :
    let text := "int f(int x) {}\nint g() {}\nint C::f() {}\n"
    let definitions : List Definition := [⟨"f", 0, 15, 1⟩, ⟨"g", 16, 26, 2⟩, ⟨"C::f", 27, 40, 3⟩]
    discover text = .ok definitions ∧
      (∃ chosen, Chooses definitions ["f@1", "g", " C::f "] chosen) ∧
      ∃ identifier ∈ ["g", "f@1"], ∃ chosen,
        Refuses definitions chosen identifier (.outOfOrder "f@1") := by
  intro text definitions
  have found : discover text = .ok definitions := by decide +kernel
  have inOrder : locate text ["f@1", "g", " C::f "] = .ok [⟨1, 0, 15⟩, ⟨2, 16, 26⟩, ⟨3, 27, 40⟩] := by
    decide +kernel
  have swapped : locate text ["g", "f@1"] = .error (.outOfOrder "f@1") := by decide +kernel
  obtain ⟨chosen, chooses, -⟩ := ((locate_of_discover found _).1 _).1 inOrder
  obtain ⟨front, identifier, behind, before, whole, -, refuses⟩ :=
    ((locate_of_discover found _).2 _).1 swapped
  exact ⟨found, ⟨chosen, chooses⟩, identifier, by simp [whole], before, refuses⟩

end

end Graft.Code
