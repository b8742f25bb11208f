import Mathlib
import StyleBlock.Import.Cache
import StyleBlock.Import.Memory
import StyleBlock.Proofs.OrderedLists

/-!
The answers of an import cache over a history of calls, with an importer that may answer differently
each time. An answer stands from the first successful request that got it to the next purge that
covers it. While it stands it is given again without a question to the importer, and any other
request gets what the importer answers by then.
-/

namespace StyleBlock

/-- What an inquiry is answered with. -/
inductive ImportAnswer where
  | identified (id : FileId)
  | imported (file : ImportedFile)
  | failed (error : Error)

namespace ImportAnswer

def ofRead : Except Error ImportedFile → ImportAnswer
  | .ok file => .imported file
  | .error error => .failed error

def Succeeds : ImportAnswer → Prop
  | .failed _ => False
  | _ => True

end ImportAnswer

/-- What an importer itself answers. -/
def Importer.answer (importer : Importer) : Inquiry → ImportAnswer
  | .identifier base path => .identified (importer.identifier base path)
  | .read id => .ofRead (importer.read id)

/-- What can be asked of a cache. -/
inductive CacheCall where
  | ask (inquiry : Inquiry)
  | purge (id : FileId)
  | purgeAll

/-- Whether a call covers an answer: forgetting everything does, and forgetting a file covers what
it was imported as and every path that it was the answer to. -/
def CacheCall.Covers (inquiry : Inquiry) (answer : ImportAnswer) : CacheCall → Prop
  | .ask _ => False
  | .purge id => inquiry = .read id ∨ answer = .identified id
  | .purgeAll => True

/-- A call with the importer as it answers at that moment. -/
structure CacheEvent where
  importer : Importer
  call : CacheCall

namespace ImportCache

variable {cache : ImportCache} {importer : Importer} {inquiry other : Inquiry}
  {answer : ImportAnswer} {id : FileId}

def ask (cache : ImportCache) (importer : Importer) : Inquiry → ImportCache × ImportAnswer
  | .identifier base path =>
    let (cache, id) := cache.identifier importer base path
    (cache, .identified id)
  | .read id =>
    let (cache, outcome) := cache.read importer id
    (cache, .ofRead outcome)

/-- The remembered answer to an inquiry. -/
def remembered? (cache : ImportCache) : Inquiry → Option ImportAnswer
  | .identifier base path => (cache.identifier? base path).map .identified
  | .read id => (cache.imported? id).map .imported

/-- A cache that remembers one answer at most for each path. -/
def IsSound (cache : ImportCache) : Prop :=
  (cache.identifiers.map Prod.fst).Nodup

theorem identifier_eq_some_iff (sound : cache.IsSound) {base : Option FileId} {path : String} :
    cache.identifier? base path = some id ↔ ((base, path), id) ∈ cache.identifiers :=
  Text.find?_key_eq_some_iff sound

/-- Taking out the file of an identifier leaves all others to be found. -/
theorem find_filter_ne (imports : List (FileId × ImportedFile)) (id other : FileId) :
    (imports.filter fun (key, _) => key ≠ id).find? (fun (key, _) => key == other) =
      if other = id then none else imports.find? fun (key, _) => key == other := by
  induction imports with
  | nil => simp
  | cons first rest ih =>
    by_cases taken : first.1 = id
    · rw [List.filter_cons_of_neg (by simpa using taken), ih, List.find?_cons]
      by_cases same : other = id
      · simp [same]
      · have apart : (first.1 == other) = false := by simpa [taken] using Ne.symm same
        simp [same, apart]
    · rw [List.filter_cons_of_pos (by simpa using taken), List.find?_cons, List.find?_cons, ih]
      by_cases found : first.1 = other
      · simp [found, show other ≠ id from found ▸ taken]
      · have apart : (first.1 == other) = false := by simpa using found
        simp only [apart]

/-- A file that is remembered replaces the one before it, and no other. -/
theorem imported_remember (cache : ImportCache) (id other : FileId) (file : ImportedFile) :
    (cache.remember id file).imported? other =
      if other = id then some file else cache.imported? other := by
  unfold remember imported?
  rw [List.find?_append, find_filter_ne]
  by_cases same : other = id
  · simp [same]
  · simp [same, Ne.symm same]

theorem imported_purge (cache : ImportCache) (id other : FileId) :
    (cache.purge id).imported? other = if other = id then none else cache.imported? other := by
  unfold purge imported?
  rw [find_filter_ne, apply_ite (Option.map Prod.snd), Option.map_none]

theorem remembered_identifier_iff (sound : cache.IsSound) {base : Option FileId} {path : String} :
    cache.remembered? (.identifier base path) = some answer ↔
      ∃ id, ((base, path), id) ∈ cache.identifiers ∧ .identified id = answer := by
  simp only [remembered?, Option.map_eq_some_iff, identifier_eq_some_iff sound]

theorem remembered_read_iff :
    cache.remembered? (.read id) = some answer ↔
      ∃ file, cache.imported? id = some file ∧ .imported file = answer := by
  simp only [remembered?, Option.map_eq_some_iff]

/-! Asking -/

/-- A remembered answer is given again. -/
theorem ask_of_some (known : cache.remembered? inquiry = some answer) :
    cache.ask importer inquiry = (cache, answer) := by
  cases inquiry with
  | identifier base path =>
    obtain ⟨id, found, rfl⟩ := Option.map_eq_some_iff.mp known
    simp [ask, identifier, found]
  | read id =>
    obtain ⟨file, found, rfl⟩ := Option.map_eq_some_iff.mp known
    simp [ask, read, found, ImportAnswer.ofRead]

theorem identifier_of_none {base : Option FileId} {path : String}
    (unknown : cache.identifier? base path = none) :
    cache.identifier importer base path =
      ({ cache with
          identifiers := cache.identifiers ++ [((base, path), importer.identifier base path)]
          asked := cache.asked ++ [.identifier base path] },
        importer.identifier base path) := by
  unfold identifier
  rw [unknown]

theorem read_of_none (unknown : cache.imported? id = none) :
    cache.read importer id =
      ((cache.noteRead id).settle id (importer.read id), importer.read id) := by
  unfold read
  rw [unknown]

theorem asked_settle (outcome : Except Error ImportedFile) :
    (cache.settle id outcome).asked = cache.asked := by
  cases outcome <;> rfl

theorem identifiers_settle (outcome : Except Error ImportedFile) :
    (cache.settle id outcome).identifiers = cache.identifiers := by
  cases outcome <;> rfl

/-- What is not remembered is answered by the importer. -/
theorem ask_of_none (unknown : cache.remembered? inquiry = none) :
    (cache.ask importer inquiry).2 = importer.answer inquiry ∧
      (cache.ask importer inquiry).1.asked = cache.asked ++ [inquiry] := by
  cases inquiry with
  | identifier base path =>
    rw [ask, identifier_of_none (Option.map_eq_none_iff.mp unknown)]
    exact ⟨rfl, rfl⟩
  | read id =>
    rw [ask, read_of_none (Option.map_eq_none_iff.mp unknown)]
    exact ⟨rfl, asked_settle _⟩

/-- What the importer answers is remembered, unless it is a failure. -/
theorem remembered_ask_self (unknown : cache.remembered? inquiry = none) :
    (cache.ask importer inquiry).1.remembered? inquiry = some answer ↔
      importer.answer inquiry = answer ∧ answer.Succeeds := by
  cases inquiry with
  | identifier base path =>
    have absent := Option.map_eq_none_iff.mp unknown
    rw [ask, identifier_of_none absent]
    unfold identifier? at absent
    rw [Option.map_eq_none_iff] at absent
    simp only [remembered?, identifier?, List.find?_append, absent, Option.none_or,
      List.find?_singleton, beq_self_eq_true, if_true, Option.map_some, Option.some.injEq,
      Importer.answer]
    exact ⟨fun same => ⟨same, same ▸ trivial⟩, And.left⟩
  | read id =>
    have absent := Option.map_eq_none_iff.mp unknown
    rw [ask, read_of_none absent, Importer.answer]
    cases importer.read id with
    | error error =>
      have still : ((cache.noteRead id).settle id (.error error)).imported? id = none := absent
      simp only [remembered?, still, Option.map_none, reduceCtorEq, false_iff, not_and]
      rintro rfl succeeds
      exact succeeds
    | ok file =>
      have now : ((cache.noteRead id).settle id (.ok file)).imported? id = some file := by
        rw [settle, imported_remember, if_pos rfl]
      simp only [remembered?, now, Option.map_some, Option.some.injEq, ImportAnswer.ofRead]
      exact ⟨fun same => ⟨same, same ▸ trivial⟩, And.left⟩

/-- Asking changes nothing that is remembered of other inquiries. -/
theorem remembered_ask_other (different : other ≠ inquiry) :
    (cache.ask importer inquiry).1.remembered? other = cache.remembered? other := by
  cases known : cache.remembered? inquiry with
  | some answer => rw [ask_of_some known]
  | none =>
    cases inquiry with
    | identifier base path =>
      rw [ask, identifier_of_none (Option.map_eq_none_iff.mp known)]
      cases other with
      | read id => rfl
      | identifier otherBase otherPath =>
        have apart : ((base, path) == (otherBase, otherPath)) = false := by
          refine beq_eq_false_iff_ne.mpr fun same => different ?_
          rw [Prod.mk.injEq] at same
          rw [same.1, same.2]
        simp [remembered?, identifier?, List.find?_append, apart]
    | read id =>
      rw [ask, read_of_none (Option.map_eq_none_iff.mp known)]
      cases other with
      | identifier base path => simp only [remembered?, identifier?, identifiers_settle]; rfl
      | read otherId =>
        have apart : otherId ≠ id := fun same => different (same ▸ rfl)
        cases importer.read id with
        | error error => rfl
        | ok file =>
          simp only [remembered?, settle, imported_remember, if_neg apart]
          rfl

theorem IsSound.ask (sound : cache.IsSound) : (cache.ask importer inquiry).1.IsSound := by
  cases known : cache.remembered? inquiry with
  | some answer => rwa [ask_of_some known]
  | none =>
    cases inquiry with
    | identifier base path =>
      have absent := Option.map_eq_none_iff.mp known
      have fresh : (base, path) ∉ cache.identifiers.map Prod.fst := by
        intro member
        obtain ⟨⟨key, found⟩, listed, rfl⟩ := List.mem_map.mp member
        exact absurd (absent.symm.trans ((identifier_eq_some_iff sound).mpr listed)) nofun
      rw [ImportCache.ask, identifier_of_none absent, IsSound, List.map_append]
      refine List.nodup_append.mpr ⟨sound, List.nodup_singleton _, ?_⟩
      rintro key member _ last rfl
      rw [List.mem_singleton.mp last] at member
      exact fresh member
    | read id =>
      rw [ImportCache.ask, read_of_none (Option.map_eq_none_iff.mp known), IsSound,
        identifiers_settle]
      exact sound

/-! Purging -/

theorem IsSound.purge (sound : cache.IsSound) : (cache.purge id).IsSound :=
  sound.sublist (List.filter_sublist.map Prod.fst)

/-- Purging a file forgets what it covers, and nothing else. -/
theorem remembered_purge (sound : cache.IsSound) :
    (cache.purge id).remembered? inquiry = some answer ↔
      cache.remembered? inquiry = some answer ∧ ¬(CacheCall.purge id).Covers inquiry answer := by
  cases inquiry with
  | identifier base path =>
    rw [remembered_identifier_iff sound, remembered_identifier_iff sound.purge]
    simp only [ImportCache.purge, List.mem_filter, decide_eq_true_eq]
    constructor
    · rintro ⟨found, ⟨listed, kept⟩, rfl⟩
      exact ⟨⟨found, listed, rfl⟩, by simpa [CacheCall.Covers] using kept⟩
    · rintro ⟨⟨found, listed, rfl⟩, kept⟩
      exact ⟨found, ⟨listed, by simpa [CacheCall.Covers] using kept⟩, rfl⟩
  | read other =>
    rw [remembered_read_iff, remembered_read_iff, imported_purge]
    by_cases same : other = id
    · simp [same, CacheCall.Covers]
    · simp only [if_neg same]
      constructor
      · rintro ⟨file, found, rfl⟩
        exact ⟨⟨file, found, rfl⟩, by simp [CacheCall.Covers, same]⟩
      · exact And.left

theorem remembered_purgeAll : cache.purgeAll.remembered? inquiry = none := by
  cases inquiry <;> rfl

/-! Histories -/

/-- The cache after a call. -/
def perform (cache : ImportCache) (event : CacheEvent) : ImportCache :=
  match event.call with
  | .ask inquiry => (cache.ask event.importer inquiry).1
  | .purge id => cache.purge id
  | .purgeAll => cache.purgeAll

/-- The cache after a history of calls, oldest first. -/
def after (history : List CacheEvent) : ImportCache :=
  history.foldl perform .empty

/-- What an inquiry is answered with after a history. -/
def answerAfter (history : List CacheEvent) (importer : Importer) (inquiry : Inquiry) :
    ImportAnswer :=
  ((after history).ask importer inquiry).2

/-- Whether the inquiry goes to the importer when it is made after a history. -/
def Asks (history : List CacheEvent) (importer : Importer) (inquiry : Inquiry) : Prop :=
  (after (history ++ [⟨importer, .ask inquiry⟩])).asked = (after history).asked ++ [inquiry]

/-- Whether a history has the inquiry after its part `before`, with an importer and a success, and
no call since then that covers the answer. -/
def Stands (history : List CacheEvent) (inquiry : Inquiry) (before : List CacheEvent)
    (importer : Importer) : Prop :=
  ∃ since, history = before ++ ⟨importer, .ask inquiry⟩ :: since ∧
    (answerAfter before importer inquiry).Succeeds ∧
    ∀ event ∈ since, ¬event.call.Covers inquiry (answerAfter before importer inquiry)

/-- Whether that is the first such request. -/
def StandsFirst (history : List CacheEvent) (inquiry : Inquiry) (before : List CacheEvent)
    (importer : Importer) : Prop :=
  Stands history inquiry before importer ∧
    ∀ other otherImporter, Stands history inquiry other otherImporter → before.length ≤ other.length

section History

variable {history before : List CacheEvent} {event : CacheEvent}

/-- What is remembered after a call was so before it and is not covered by it, or is what the
importer has just answered. -/
theorem remembered_perform (sound : cache.IsSound) :
    (cache.perform event).remembered? inquiry = some answer ↔
      (cache.remembered? inquiry = some answer ∧ ¬event.call.Covers inquiry answer) ∨
      (cache.remembered? inquiry = none ∧ event.call = .ask inquiry ∧
        event.importer.answer inquiry = answer ∧ answer.Succeeds) := by
  obtain ⟨importer, call⟩ := event
  cases call with
  | purge id => simpa [perform] using remembered_purge sound
  | purgeAll => simp [perform, remembered_purgeAll, CacheCall.Covers]
  | ask other =>
    simp only [perform, CacheCall.Covers, not_false_eq_true, and_true, CacheCall.ask.injEq]
    by_cases same : other = inquiry
    · subst same
      cases known : cache.remembered? other with
      | some earlier => simp [ask_of_some known, known]
      | none => simp [remembered_ask_self known]
    · simp [remembered_ask_other (Ne.symm same), same]

theorem after_concat : after (history ++ [event]) = (after history).perform event := by
  simp [after]

theorem isSound_after (history : List CacheEvent) : (after history).IsSound := by
  induction history using List.reverseRecOn with
  | nil => exact List.nodup_nil
  | append_singleton history event ih =>
    rw [after_concat]
    obtain ⟨importer, call⟩ := event
    cases call with
    | ask inquiry => exact ih.ask
    | purge id => exact ih.purge
    | purgeAll => exact List.nodup_nil

theorem Stands.length_lt (stands : Stands history inquiry before importer) :
    before.length < history.length := by
  obtain ⟨since, rfl, -⟩ := stands
  simp

/-- A request that stands still does after one more call, unless that covers its answer. -/
theorem stands_concat_iff :
    Stands (history ++ [event]) inquiry before importer ↔
      (Stands history inquiry before importer ∧
        ¬event.call.Covers inquiry (answerAfter before importer inquiry)) ∨
      (before = history ∧ event = ⟨importer, .ask inquiry⟩ ∧
        (answerAfter history importer inquiry).Succeeds) := by
  constructor
  · rintro ⟨since, split, succeeds, uncovered⟩
    rcases List.eq_nil_or_concat since with rfl | ⟨earlier, last, rfl⟩
    · obtain ⟨rfl, same⟩ := List.append_inj' split rfl
      obtain rfl := (List.cons.inj same).1
      exact .inr ⟨rfl, rfl, succeeds⟩
    · rw [List.concat_eq_append] at split uncovered
      rw [← List.cons_append, ← List.append_assoc] at split
      obtain ⟨rfl, same⟩ := List.append_inj' split rfl
      obtain rfl := (List.cons.inj same).1
      refine .inl ⟨⟨earlier, rfl, succeeds, fun event member => ?_⟩, ?_⟩
      · exact uncovered event (List.mem_append_left _ member)
      · exact uncovered event (List.mem_append_right _ (List.mem_singleton_self _))
  · rintro (⟨⟨since, rfl, succeeds, uncovered⟩, kept⟩ | ⟨rfl, rfl, succeeds⟩)
    · refine ⟨since ++ [event], by simp, succeeds, fun other member => ?_⟩
      rcases List.mem_append.mp member with old | new
      · exact uncovered other old
      · exact List.mem_singleton.mp new ▸ kept
    · exact ⟨[], rfl, succeeds, nofun⟩

theorem answerAfter_of_some (known : (after history).remembered? inquiry = some answer) :
    answerAfter history importer inquiry = answer := by
  rw [answerAfter, ask_of_some known]

/-- An answer that stands is remembered. -/
theorem remembered_of_stands (stands : Stands history inquiry before importer) :
    (after history).remembered? inquiry = some (answerAfter before importer inquiry) := by
  induction history using List.reverseRecOn with
  | nil =>
    obtain ⟨since, split, -⟩ := stands
    simp at split
  | append_singleton history event ih =>
    rw [after_concat, remembered_perform (isSound_after history)]
    rcases stands_concat_iff.mp stands with ⟨earlier, kept⟩ | ⟨rfl, rfl, succeeds⟩
    · exact .inl ⟨ih earlier, kept⟩
    · cases known : (after before).remembered? inquiry with
      | some answer =>
        exact .inl ⟨congrArg some (answerAfter_of_some known).symm, id⟩
      | none => exact .inr ⟨rfl, rfl, (ask_of_none known).1.symm, succeeds⟩

/-- A request for what is not remembered stands first, if it succeeds. -/
theorem standsFirst_concat_self_iff (unknown : (after history).remembered? inquiry = none) :
    StandsFirst (history ++ [⟨importer, .ask inquiry⟩]) inquiry history importer ↔
      (answerAfter history importer inquiry).Succeeds := by
  constructor
  · rintro ⟨⟨since, -, succeeds, -⟩, -⟩
    exact succeeds
  · intro succeeds
    refine ⟨stands_concat_iff.mpr (.inr ⟨rfl, rfl, succeeds⟩), fun other otherImporter stands => ?_⟩
    rcases stands_concat_iff.mp stands with ⟨earlier, -⟩ | ⟨rfl, -, -⟩
    · exact absurd ((remembered_of_stands earlier).symm.trans unknown) nofun
    · exact le_rfl

/-- What is remembered is what the importer answered to the first request that stands. -/
theorem exists_standsFirst (known : (after history).remembered? inquiry = some answer) :
    ∃ before importer, StandsFirst history inquiry before importer ∧
      importer.answer inquiry = answer := by
  induction history using List.reverseRecOn with
  | nil => cases inquiry <;> cases known
  | append_singleton history event ih =>
    rw [after_concat, remembered_perform (isSound_after history)] at known
    rcases known with ⟨known, kept⟩ | ⟨unknown, isAsk, rfl, succeeds⟩
    · obtain ⟨before, importer, ⟨stands, first⟩, answers⟩ := ih known
      have same : answerAfter before importer inquiry = answer :=
        Option.some.inj ((remembered_of_stands stands).symm.trans known)
      refine ⟨before, importer, ⟨stands_concat_iff.mpr (.inl ⟨stands, same ▸ kept⟩), ?_⟩, answers⟩
      intro other otherImporter otherStands
      rcases stands_concat_iff.mp otherStands with ⟨earlier, -⟩ | ⟨rfl, -, -⟩
      · exact first other otherImporter earlier
      · exact stands.length_lt.le
    · obtain ⟨importer, call⟩ := event
      obtain rfl : call = .ask inquiry := isAsk
      have answers : answerAfter history importer inquiry = importer.answer inquiry :=
        (ask_of_none unknown).1
      exact ⟨history, importer, (standsFirst_concat_self_iff unknown).mpr (answers ▸ succeeds), rfl⟩

theorem succeeds_of_remembered (known : (after history).remembered? inquiry = some answer) :
    answer.Succeeds := by
  obtain ⟨before, importer, ⟨stands, -⟩, -⟩ := exists_standsFirst known
  obtain same := Option.some.inj ((remembered_of_stands stands).symm.trans known)
  obtain ⟨since, -, succeeds, -⟩ := stands
  exact same ▸ succeeds

theorem asks_iff : Asks history importer inquiry ↔ (after history).remembered? inquiry = none := by
  unfold Asks
  rw [after_concat, perform]
  cases known : (after history).remembered? inquiry with
  | some answer => simp [ask_of_some known]
  | none => simp [(ask_of_none known).2]

theorem remembered_of_not_asks (unasked : ¬Asks history importer inquiry) :
    (after history).remembered? inquiry = some (answerAfter history importer inquiry) := by
  obtain ⟨answer, known⟩ := Option.ne_none_iff_exists'.mp (mt asks_iff.mpr unasked)
  rw [known, answerAfter_of_some known]

/-- While an answer is remembered, a request is not the first that stands. -/
theorem not_standsFirst_concat_self (known : (after history).remembered? inquiry = some answer) :
    ¬StandsFirst (history ++ [⟨importer, .ask inquiry⟩]) inquiry history importer := by
  rintro ⟨-, first⟩
  obtain ⟨before, origin, ⟨stands, -⟩, -⟩ := exists_standsFirst known
  exact absurd (first before origin (stands_concat_iff.mpr (.inl ⟨stands, id⟩)))
    stands.length_lt.not_ge

/-- The importer is asked at the first request that stands, and at those that fail. -/
theorem asks_iff_standsFirst :
    Asks history importer inquiry ↔
      StandsFirst (history ++ [⟨importer, .ask inquiry⟩]) inquiry history importer ∨
        ¬(answerAfter history importer inquiry).Succeeds := by
  rw [asks_iff]
  cases known : (after history).remembered? inquiry with
  | none => simp [standsFirst_concat_self_iff known, Classical.em]
  | some answer =>
    have succeeds : (answerAfter history importer inquiry).Succeeds :=
      answerAfter_of_some known ▸ succeeds_of_remembered known
    simp [not_standsFirst_concat_self known, succeeds]

/-- A success is what the importer answered to the first request that stands, be it the last. -/
theorem exists_origin (succeeds : (answerAfter history importer inquiry).Succeeds) :
    ∃ before origin,
      StandsFirst (history ++ [⟨importer, .ask inquiry⟩]) inquiry before origin ∧
        answerAfter history importer inquiry = origin.answer inquiry := by
  obtain ⟨before, origin, first, answers⟩ := exists_standsFirst
    (remembered_of_stands (stands_concat_iff.mpr (.inr ⟨rfl, rfl, succeeds⟩)))
  exact ⟨before, origin, first, answers.symm⟩

/-- Purging a file makes its import and the paths that it was the answer to be asked again, and
leaves all other answers as they were. -/
theorem asks_purge_iff {purger : Importer} :
    Asks (history ++ [⟨purger, .purge id⟩]) importer inquiry ↔
      Asks history importer inquiry ∨
        (CacheCall.purge id).Covers inquiry (answerAfter history importer inquiry) := by
  simp only [asks_iff, after_concat, perform]
  have kept : ∀ answer, ((after history).purge id).remembered? inquiry = some answer ↔
      (after history).remembered? inquiry = some answer ∧
        ¬(CacheCall.purge id).Covers inquiry answer :=
    fun answer => remembered_purge (isSound_after history)
  cases known : (after history).remembered? inquiry with
  | none =>
    refine iff_of_true (Option.eq_none_iff_forall_ne_some.mpr fun answer found => ?_) (.inl rfl)
    simp [kept, known] at found
  | some answer =>
    rw [answerAfter_of_some known, Option.eq_none_iff_forall_ne_some]
    simp [kept, known]

/-- After any calls, a success is what the importer answered to the first request that stands, and
the importer is asked at that request and at those that fail. Purging a file makes its import and
the paths that it was the answer to be asked again, and leaves all other answers as they were;
purging everything makes every inquiry be asked again. -/
theorem transparent_between_purges (history : List CacheEvent) (importer : Importer)
    (inquiry : Inquiry) :
    let calls := history ++ [⟨importer, .ask inquiry⟩]
    let answer := answerAfter history importer inquiry
    (answer.Succeeds → ∃ before origin,
      StandsFirst calls inquiry before origin ∧ answer = origin.answer inquiry) ∧
    (Asks history importer inquiry ↔
      StandsFirst calls inquiry history importer ∨ ¬answer.Succeeds) ∧
    (Asks history importer inquiry → answer = importer.answer inquiry) ∧
    (¬Asks history importer inquiry → after calls = after history) ∧
    (∀ purger id, let purged := history ++ [⟨purger, .purge id⟩]
      (after purged).asked = (after history).asked ∧
      (Asks purged importer inquiry ↔
        Asks history importer inquiry ∨ inquiry = .read id ∨ answer = .identified id) ∧
      (¬Asks purged importer inquiry → answerAfter purged importer inquiry = answer)) ∧
    (∀ purger, let purged := history ++ [⟨purger, .purgeAll⟩]
      (after purged).asked = (after history).asked ∧ Asks purged importer inquiry) := by
  refine ⟨exists_origin, asks_iff_standsFirst, fun asks => (ask_of_none (asks_iff.mp asks)).1,
    fun unasked => ?_, fun purger id => ⟨?_, asks_purge_iff, fun unasked => ?_⟩,
    fun purger => ⟨?_, ?_⟩⟩
  · simp only [after_concat, perform, ask_of_some (remembered_of_not_asks unasked)]
  · rw [after_concat]
    rfl
  · have known := remembered_of_not_asks unasked
    rw [after_concat, perform, remembered_purge (isSound_after history)] at known
    exact (answerAfter_of_some known.1).symm
  · rw [after_concat]
    rfl
  · rw [asks_iff, after_concat, perform]
    exact remembered_purgeAll

end History

/-- A file that could not be read at first is asked for again. Once it was read it stays as it was
then, although it is written anew, until it is purged. -/
theorem rewritten_file_stays :
    let written (contents : String) : Importer := MemoryFiles.importer ⟨[("a.css", contents)], []⟩
    let inquiry : Inquiry := .read "a.css"
    let history : List CacheEvent :=
      [⟨MemoryFiles.importer ⟨[], []⟩, .ask inquiry⟩, ⟨written "old", .ask inquiry⟩]
    let answer := answerAfter history (written "new") inquiry
    ¬Asks history (written "new") inquiry ∧ answer.Succeeds ∧
      answer = (written "old").answer inquiry ∧
      (∃ before origin,
        StandsFirst (history ++ [⟨written "new", .ask inquiry⟩]) inquiry before origin ∧
        answer = origin.answer inquiry) ∧
      Asks (history ++ [⟨written "new", .purge "a.css"⟩]) (written "new") inquiry := by
  intro written inquiry history answer
  have kept : (after history).remembered? inquiry = some ((written "old").answer inquiry) := rfl
  have unasked : ¬Asks history (written "new") inquiry := by
    simp [asks_iff, kept]
  obtain ⟨origin, asked, -, -, purges, -⟩ :=
    transparent_between_purges history (written "new") inquiry
  have succeeds : answer.Succeeds := by
    by_contra fails
    exact unasked (asked.mpr (.inr fails))
  exact ⟨unasked, succeeds, answerAfter_of_some kept, origin succeeds,
    (purges _ _).2.1.mpr (.inr (.inl rfl))⟩

end ImportCache

end StyleBlock
