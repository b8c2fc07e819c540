import Graft.Work.Basic

/-!
The courses that work can take. A course is the list of what happens, action by action with the
answers to them, and the result that the work comes to; the answers are those of any store, service,
validator and files. `course_trace` says that what happens when work is run in a world is one of
its courses, so what holds of all courses holds of every run.
-/

namespace Graft

open Generation

def Action.request? : Action → Option Request
  | .ask request => some request
  | _ => none

namespace Work

variable {α β ω : Type}

instance : LawfulMonad Work :=
  LawfulMonad.mk' Work andThen_done (fun _ _ => rfl) andThen_assoc

inductive Course : Work α → List Happening → Except Failure α → Prop
  | done (value : α) : Course (.done value) [] (.ok value)
  | failed (failure : Failure) : Course (.failed failure) [] (.error failure)
  | act (action : Action) (answer : action.Answer) {next : action.Answer → Work α}
      {happenings : List Happening} {result : Except Failure α}
      (rest : Course (next answer) happenings result) :
      Course (.act action next) (⟨action, answer⟩ :: happenings) result

/-- What happens when work is run in a world is one of its courses. -/
theorem course_trace (handler : Handler ω) (work : Work α) (world : ω) :
    Course work (work.trace handler world) (work.run handler world).1 := by
  induction work generalizing world with
  | done value => exact .done value
  | failed failure => exact .failed failure
  | act action next ih => exact .act action _ (ih _ _)

/-- What happens is answered by the world at some time. -/
theorem answer_of_mem_trace {handler : Handler ω} {work : Work α} {world : ω} {happening : Happening}
    (member : happening ∈ work.trace handler world) :
    ∃ now, happening.2 = (handler happening.1 now).1 := by
  induction work generalizing world with
  | done => cases member
  | failed => cases member
  | act action next ih =>
      rcases List.mem_cons.1 member with rfl | later
      · exact ⟨world, rfl⟩
      · exact ih _ later

/-- A run that comes to a value takes a course that comes to it. -/
theorem course_of_run {handler : Handler ω} {work : Work α} {world : ω} {p : α → Bool}
    (came : (work.run handler world).1.toOption.any p = true) :
    ∃ value, (work.run handler world).1 = .ok value ∧
      Course work (work.trace handler world) (.ok value) ∧ p value = true := by
  have course := course_trace handler work world
  cases result : (work.run handler world).1 with
  | error failure => simp [result, Except.toOption] at came
  | ok value =>
      rw [result] at course
      exact ⟨value, rfl, course, by simpa [result, Except.toOption] using came⟩

/-- Two courses of one piece of work are the same, or part where an action is answered otherwise. -/
theorem eq_or_parts_of_courses {work : Work α} {happenings others : List Happening}
    {result otherwise : Except Failure α} (course : Course work happenings result)
    (other : Course work others otherwise) : (happenings = others ∧ result = otherwise) ∨
      ∃ before action answer different later rest,
        happenings = before ++ ⟨action, answer⟩ :: later ∧
        others = before ++ ⟨action, different⟩ :: rest ∧ answer ≠ different := by
  induction course generalizing others with
  | done value =>
      cases other
      exact .inl ⟨rfl, rfl⟩
  | failed failure =>
      cases other
      exact .inl ⟨rfl, rfl⟩
  | @act action answer next happenings result rest ih =>
      cases other with
      | act _ different later =>
          by_cases same : answer = different
          · subst same
            rcases ih later with ⟨rfl, rfl⟩ | ⟨before, act, first, second, behind, last, rfl, rfl, parts⟩
            · exact .inl ⟨rfl, rfl⟩
            · exact .inr ⟨_ :: before, act, first, second, behind, last, rfl, rfl, parts⟩
          · exact .inr ⟨[], action, answer, different, _, _, rfl, rfl, same⟩

section Inversion

variable {happenings : List Happening}

@[simp] theorem course_done_iff {value : α} {result : Except Failure α} :
    Course (.done value) happenings result ↔ happenings = [] ∧ result = .ok value := by
  constructor
  · rintro ⟨⟩
    exact ⟨rfl, rfl⟩
  · rintro ⟨rfl, rfl⟩
    exact .done value

@[simp] theorem course_pure_iff {value : α} {result : Except Failure α} :
    Course (pure value) happenings result ↔ happenings = [] ∧ result = .ok value :=
  course_done_iff

@[simp] theorem course_failed_iff {failure : Failure} {result : Except Failure α} :
    Course (.failed failure) happenings result ↔ happenings = [] ∧ result = .error failure := by
  constructor
  · rintro ⟨⟩
    exact ⟨rfl, rfl⟩
  · rintro ⟨rfl, rfl⟩
    exact .failed failure

theorem course_act_iff {action : Action} {next : action.Answer → Work α}
    {result : Except Failure α} :
    Course (.act action next) happenings result ↔
      ∃ answer rest, happenings = ⟨action, answer⟩ :: rest ∧ Course (next answer) rest result := by
  constructor
  · rintro ⟨⟩
    exact ⟨_, _, rfl, ‹_›⟩
  · rintro ⟨answer, rest, rfl, course⟩
    exact .act action answer course

/-- Work that goes on with the value of another one takes a course of that one, and then one of its
own if the other came to a value. -/
theorem course_bind_iff {work : Work α} {next : α → Work β} {result : Except Failure β} :
    Course (work >>= next) happenings result ↔
      (∃ value first rest, Course work first (.ok value) ∧ Course (next value) rest result ∧
        happenings = first ++ rest) ∨
      ∃ failure, Course work happenings (.error failure) ∧ result = .error failure := by
  change Course (work.andThen next) happenings result ↔ _
  constructor
  · intro course
    induction work generalizing happenings with
    | done value => exact .inl ⟨value, [], happenings, .done value, course, rfl⟩
    | failed failure =>
        obtain ⟨rfl, rfl⟩ := course_failed_iff.1 course
        exact .inr ⟨failure, .failed failure, rfl⟩
    | act action rest ih =>
        obtain ⟨answer, later, rfl, hlater⟩ := course_act_iff.1 course
        rcases ih answer hlater with ⟨value, first, last, hfirst, hlast, rfl⟩ | ⟨failure, h, rfl⟩
        · exact .inl ⟨value, ⟨action, answer⟩ :: first, last, .act action answer hfirst, hlast, rfl⟩
        · exact .inr ⟨failure, .act action answer h, rfl⟩
  · rintro (⟨value, first, rest, hfirst, hrest, rfl⟩ | ⟨failure, h, rfl⟩)
    · induction work generalizing first with
      | done =>
          obtain ⟨rfl, heq⟩ := course_done_iff.1 hfirst
          obtain rfl := Except.ok.inj heq
          exact hrest
      | failed failure => simp at hfirst
      | act action later ih =>
          obtain ⟨answer, last, rfl, hlast⟩ := course_act_iff.1 hfirst
          exact .act action answer (ih answer last hlast)
    · induction work generalizing happenings with
      | done => simp at h
      | failed =>
          obtain ⟨rfl, heq⟩ := course_failed_iff.1 h
          obtain rfl := Except.error.inj heq
          exact .failed _
      | act action later ih =>
          obtain ⟨answer, last, rfl, hlast⟩ := course_act_iff.1 h
          exact .act action answer (ih answer hlast)

/-- Work that only makes something of the value of another one takes the courses of that one. -/
theorem course_bind_pure_iff {work : Work α} {f : α → β} {result : Except Failure β} :
    Course (work >>= fun value => pure (f value)) happenings result ↔
      ∃ found, Course work happenings found ∧ result = found.map f := by
  rw [course_bind_iff]
  constructor
  · rintro (⟨value, first, _, hfirst, hlast, rfl⟩ | ⟨failure, h, rfl⟩)
    · obtain ⟨rfl, rfl⟩ := course_pure_iff.1 hlast
      exact ⟨.ok value, by simpa using hfirst, rfl⟩
    · exact ⟨.error failure, h, rfl⟩
  · rintro ⟨found, course, rfl⟩
    cases found with
    | error failure => exact .inr ⟨failure, course, rfl⟩
    | ok value => exact .inl ⟨value, happenings, [], course, .done _, by simp⟩

theorem course_perform_bind_iff {action : Action} {next : action.Answer → Work β}
    {result : Except Failure β} :
    Course (perform action >>= next) happenings result ↔
      ∃ answer rest, happenings = ⟨action, answer⟩ :: rest ∧ Course (next answer) rest result :=
  course_act_iff

theorem course_ofExcept_iff {ε : Type} {toFailure : ε → Failure} {value : Except ε α}
    {result : Except Failure α} :
    Course (ofExcept toFailure value) happenings result ↔
      happenings = [] ∧ result = value.mapError toFailure := by
  cases value with
  | ok found => exact course_done_iff
  | error error => exact course_failed_iff

def told (event : Event) : Happening := ⟨.tell event, ()⟩

theorem course_tell_bind_iff {event : Event} {next : Unit → Work β} {result : Except Failure β} :
    Course (tell event >>= next) happenings result ↔
      ∃ rest, happenings = told event :: rest ∧ Course (next ()) rest result := by
  rw [tell, course_perform_bind_iff]
  exact ⟨fun ⟨_, rest, h⟩ => ⟨rest, h⟩, fun ⟨rest, h⟩ => ⟨(), rest, h⟩⟩

theorem course_ofExcept_bind_iff {ε : Type} {toFailure : ε → Failure} {value : Except ε α}
    {next : α → Work β} {result : Except Failure β} :
    Course (ofExcept toFailure value >>= next) happenings result ↔
      (∃ found, value = .ok found ∧ Course (next found) happenings result) ∨
      ∃ error, value = .error error ∧ happenings = [] ∧ result = .error (toFailure error) := by
  cases value with
  | ok found => simp [ofExcept, bind, andThen]
  | error error => simp [ofExcept, bind, andThen]

/-- An action that may fail has happened; the work goes on with its value, or has failed. -/
theorem course_perform_ofExcept_bind_iff {ε γ : Type} {action : Action}
    {read : action.Answer → Except ε γ} {toFailure : ε → Failure} {next : γ → Work β}
    {result : Except Failure β} :
    Course (perform action >>= fun answer => ofExcept toFailure (read answer) >>= next)
        happenings result ↔
      (∃ value rest answer, read answer = .ok value ∧ happenings = ⟨action, answer⟩ :: rest ∧
        Course (next value) rest result) ∨
      ∃ error answer, read answer = .error error ∧ happenings = [⟨action, answer⟩] ∧
        result = .error (toFailure error) := by
  simp only [course_perform_bind_iff, course_ofExcept_bind_iff]
  constructor
  · rintro ⟨answer, rest, rfl, ⟨value, hread, course⟩ | ⟨error, hread, rfl, rfl⟩⟩
    · exact .inl ⟨value, rest, answer, hread, rfl, course⟩
    · exact .inr ⟨error, answer, hread, rfl, rfl⟩
  · rintro (⟨value, rest, answer, hread, rfl, course⟩ | ⟨error, answer, hread, rfl, rfl⟩)
    · exact ⟨answer, rest, rfl, .inl ⟨value, hread, course⟩⟩
    · exact ⟨answer, [], rfl, .inr ⟨error, hread, rfl, rfl⟩⟩

theorem course_put_bind_iff {unit : UnitId} {ordinal : Nat} {text : String} {next : Nat → Work β}
    {result : Except Failure β} :
    Course (put unit ordinal text >>= next) happenings result ↔
      (∃ attempt rest, happenings = ⟨.put unit ordinal text, .ok attempt⟩ :: rest ∧
        Course (next attempt) rest result) ∨
      ∃ error, happenings = [⟨.put unit ordinal text, .error error⟩] ∧
        result = .error (.store error) := by
  unfold put
  rw [bind_assoc, course_perform_ofExcept_bind_iff]
  simp only [exists_eq_left]

theorem course_get_bind_iff {unit : UnitId} {ordinal attempt : Nat} {next : String → Work β}
    {result : Except Failure β} :
    Course (get unit ordinal attempt >>= next) happenings result ↔
      (∃ text rest, happenings = ⟨.get unit ordinal attempt, .ok text⟩ :: rest ∧
        Course (next text) rest result) ∨
      ∃ error, happenings = [⟨.get unit ordinal attempt, .error error⟩] ∧
        result = .error (.store error) := by
  unfold get
  rw [bind_assoc, course_perform_ofExcept_bind_iff]
  simp only [exists_eq_left]

theorem course_attempts_bind_iff {unit : UnitId} {ordinal : Nat} {next : List Nat → Work β}
    {result : Except Failure β} :
    Course (attempts unit ordinal >>= next) happenings result ↔
      (∃ stored rest, happenings = ⟨.attempts unit ordinal, .ok stored⟩ :: rest ∧
        Course (next stored) rest result) ∨
      ∃ error, happenings = [⟨.attempts unit ordinal, .error error⟩] ∧
        result = .error (.store error) := by
  unfold attempts
  rw [bind_assoc, course_perform_ofExcept_bind_iff]
  simp only [exists_eq_left]

end Inversion

def asked (happenings : List Happening) : List Request :=
  happenings.filterMap (·.1.request?)

@[simp] theorem asked_nil : asked [] = [] := rfl

@[simp] theorem asked_append (first rest : List Happening) :
    asked (first ++ rest) = asked first ++ asked rest := List.filterMap_append

@[simp] theorem asked_cons_ask (request : Request) (reply : Reply) (rest : List Happening) :
    asked (⟨.ask request, reply⟩ :: rest) = request :: asked rest := rfl

@[simp] theorem asked_cons_put (unit : UnitId) (ordinal : Nat) (text : String)
    (answer : Except StoreError Nat) (rest : List Happening) :
    asked (⟨.put unit ordinal text, answer⟩ :: rest) = asked rest := rfl

@[simp] theorem asked_cons_get (unit : UnitId) (ordinal attempt : Nat)
    (answer : Except StoreError String) (rest : List Happening) :
    asked (⟨.get unit ordinal attempt, answer⟩ :: rest) = asked rest := rfl

@[simp] theorem asked_cons_attempts (unit : UnitId) (ordinal : Nat)
    (answer : Except StoreError (List Nat)) (rest : List Happening) :
    asked (⟨.attempts unit ordinal, answer⟩ :: rest) = asked rest := rfl

@[simp] theorem asked_cons_validate (variant : Variant) (fileName : String) (verdict : Verdict)
    (rest : List Happening) :
    asked (⟨.validate variant fileName, verdict⟩ :: rest) = asked rest := rfl

@[simp] theorem asked_cons_told (event : Event) (rest : List Happening) :
    asked (told event :: rest) = asked rest := rfl

end Work

end Graft
