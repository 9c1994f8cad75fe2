import SqlMaps.Proofs.Template.Selection

/-! How a source is dealt with.

Nothing says that a feed ever ends, and `Feed.visit` compiles from one by one contact after
another. Which contact comes next hangs on what the walk makes of the last answer. The walk is
where the reader is, so all there is to say about a visit is said by the answers that decide for
the reader: `after?_of_endsStream` and `SelectedEnds.after?` are about those, `visit_disciplined`
is about whole visits, and puts them to `compilation`. -/
namespace SqlMaps.Template
open Markup

/-! ### Answers that decide -/

/-- The stream has ended, or the read has failed. -/
def EndsStream : Answer → Prop
  | .ok event => event = .endOfStream
  | .error _ => True

/-- The events end with the end of the statement that the id selects: the first with the id that is
not inside another statement. -/
inductive SelectedEnds (id : String) : List Event → Prop
  | selected {name : String} {kind : StatementKind} {attributes : Attributes} {inner : List Event}
      (closing : String) : StatementKind.ofTag? name = some kind → ("id", id) ∈ attributes →
      Balanced inner → SelectedEnds id (.start name attributes :: inner ++ [.finish closing])
  | text (content : String) {next : List Event} : SelectedEnds id next →
      SelectedEnds id (.text content :: next)
  | finish (name : String) {next : List Event} : SelectedEnds id next →
      SelectedEnds id (.finish name :: next)
  /-- An element that is no statement. -/
  | start {name : String} (attributes : Attributes) {next : List Event} :
      StatementKind.ofTag? name = none → SelectedEnds id next →
      SelectedEnds id (.start name attributes :: next)
  /-- A statement with another id. -/
  | statement {name : String} {kind : StatementKind} {attributes : Attributes}
      {inner next : List Event} (closing : String) :
      StatementKind.ofTag? name = some kind → ("id", id) ∉ attributes → Balanced inner →
      SelectedEnds id next →
      SelectedEnds id (.start name attributes :: inner ++ .finish closing :: next)

namespace Reader
variable {id : String} {reader reader' : Reader} {answers before : List Answer}

/-- Answers have decided the result if those behind them have no say. -/
theorem after?_eq_none_iff :
    reader.after? id answers = none ↔
      ∀ rest rest', reader.result id (answers ++ rest) = reader.result id (answers ++ rest') := by
  refine ⟨result_of_decided, fun h => ?_⟩
  cases hread : reader.after? id answers with
  | none => rfl
  | some reader' =>
    have hsame := h [.error .closed] [.error (.source "")]
    rw [result_append hread, result_append hread] at hsame
    cases hsame

/-- Where answers make no difference behind an event, they make none with it in front. -/
theorem result_cons_congr {event : Event} {rest rest' : List Answer}
    (h : ∀ next, reader.step id event = .continue next →
      next.result id rest = next.result id rest') :
    reader.result id (.ok event :: rest) = reader.result id (.ok event :: rest') := by
  cases hstep : reader.step id event with
  | done r => rw [result_of_done hstep, result_of_done hstep]
  | «continue» next => rw [result_of_continue hstep, result_of_continue hstep, h next hstep]

/-- What reading an answer leads to. -/
def hear (id : String) (reader : Reader) : Answer → Progress
  | .ok event => reader.step id event
  | .error cause => .done (.error (.malformed cause))

theorem walker_hear {params : Params} (reader : Reader) (answer : Answer) :
    (reader.walker params).hear params id answer = (reader.hear id answer).walked params := by
  cases answer with
  | ok event => exact walker_step reader id event
  | error cause => rfl

theorem after?_cons (answer : Answer) (rest : List Answer) :
    reader.after? id (answer :: rest) =
      match reader.hear id answer with
      | .done _ => none
      | .continue reader => reader.after? id rest := by
  cases answer <;> rfl

theorem run_cons (answer : Answer) (rest : List Answer) :
    reader.run id (answer :: rest) =
      match reader.hear id answer with
      | .done result => (result, 1)
      | .continue reader => ((reader.run id rest).1, (reader.run id rest).2 + 1) := by
  cases answer <;> rfl

theorem run_append (h : reader.after? id before = some reader') (rest : List Answer) :
    reader.run id (before ++ rest) =
      ((reader'.run id rest).1, before.length + (reader'.run id rest).2) := by
  induction before generalizing reader with
  | nil =>
    cases h
    simp
  | cons answer before ih =>
    rw [after?_cons] at h
    rw [List.cons_append, run_cons]
    cases hhear : reader.hear id answer with
    | done => simp [hhear] at h
    | «continue» next =>
      simp only [hhear] at h
      simp only [ih h, List.length_cons]
      exact congrArg _ (by omega)

/-- A source says by itself, behind its last answer, that the stream has ended. -/
theorem run_endOfStream :
    reader.run id (answers ++ [.ok .endOfStream]) = reader.run id answers := by
  induction answers generalizing reader with
  | nil =>
    obtain ⟨e, he⟩ := reader.step_endOfStream id
    simp [run, he]
  | cons answer rest ih =>
    rw [List.cons_append, run_cons, run_cons]
    simp only [ih]

/-- The end of the stream decides, and so does a read that fails. -/
theorem after?_of_endsStream {answer : Answer} (h : EndsStream answer) (hmem : answer ∈ answers) :
    reader.after? id answers = none := by
  obtain ⟨before, rest, rfl⟩ := List.append_of_mem hmem
  rw [after?_append]
  cases reader.after? id before with
  | none => rfl
  | some reader' =>
    show reader'.after? id (answer :: rest) = none
    cases answer with
    | error => rfl
    | ok event =>
      obtain rfl : event = .endOfStream := h
      obtain ⟨e, he⟩ := reader'.step_endOfStream id
      simp only [after?, he]

end Reader

/-- The end of the selected statement decides, whatever has been read in front of it. -/
theorem SelectedEnds.after? {id : String} {events : List Event} (h : SelectedEnds id events) :
    Reader.seeking.after? id (events.map .ok) = none := by
  rw [Reader.after?_eq_none_iff]
  induction h with
  | @selected name kind attributes inner closing hname hid hinner =>
    obtain ⟨f, hf⟩ := Reader.exists_forest hinner id
    have hread : ∀ rest : List Answer,
        Reader.seeking.result id
            ((Event.start name attributes :: inner ++ [Event.finish closing]).map .ok ++ rest) =
          (Reader.inside kind (.start name attributes) []).result id
            (f.events.map .ok ++ .ok (.finish closing) :: rest) := by
      intro rest
      rw [← hf, ← Reader.result_of_continue (Reader.step_seeking_wanted hname hid)]
      simp
    intro rest rest'
    rw [hread, hread, Reader.result_finished id f closing rest,
      Reader.result_finished id f closing rest']
  | text content _ ih =>
    intro rest rest'
    exact Reader.result_cons_congr fun _ hnext => Reader.Progress.continue.inj hnext ▸ ih rest rest'
  | finish name _ ih =>
    intro rest rest'
    exact Reader.result_cons_congr fun _ hnext => Reader.Progress.continue.inj hnext ▸ ih rest rest'
  | @start name attributes next hname _ ih =>
    intro rest rest'
    refine Reader.result_cons_congr fun reader hreader => ?_
    cases hdirective : DirectiveKind.ofTag? name with
    | some directive =>
      rw [Reader.step_seeking_directive hname hdirective] at hreader
      cases hreader
    | none =>
      rw [Reader.step_seeking_grouping hname hdirective] at hreader
      exact Reader.Progress.continue.inj hreader ▸ ih rest rest'
  | @statement name kind attributes inner next closing hname hid hinner _ ih =>
    obtain ⟨f, hf⟩ := Reader.exists_forest hinner id
    have hread : ∀ rest : List Answer,
        Reader.seeking.result id
            ((Event.start name attributes :: inner ++ .finish closing :: next).map .ok ++ rest) =
          Reader.seeking.result id (next.map .ok ++ rest) := by
      intro rest
      have hskip : (Reader.skipping name 1).result id
          (inner.map .ok ++ .ok (.finish closing) :: (next.map .ok ++ rest)) =
            Reader.seeking.result id (next.map .ok ++ rest) := by
        rw [hf, Reader.result_append (Reader.after?_skipping f name 0)]
        exact Reader.result_of_continue rfl
      rw [← hskip, ← Reader.result_of_continue (Reader.step_seeking_other hname hid)]
      simp
    intro rest rest'
    rw [hread, hread, ih rest rest']

/-! ### Visits -/

namespace Feed
variable (feed : Feed)

/-- The answers to the first reads. -/
def first (n : Nat) : List Answer :=
  (List.range n).map feed.answer

variable {feed} {id : String} {params : List Param}

theorem first_succ (n : Nat) : feed.first (n + 1) = feed.first n ++ [feed.answer n] := by
  simp [first, List.range_succ]

@[simp] theorem length_first (n : Nat) : (feed.first n).length = n := by
  simp [first]

theorem answer_mem_first {i n : Nat} (h : i < n) : feed.answer i ∈ feed.first n :=
  List.mem_map.2 ⟨i, List.mem_range.2 h, rfl⟩

theorem first_prefix {m n : Nat} (h : m ≤ n) : feed.first m <+: feed.first n := by
  obtain ⟨k, rfl⟩ := Nat.exists_eq_add_of_le h
  rw [first, first, List.range_add, List.map_append]
  exact List.prefix_append ..

/-- What is over stays as it is. -/
theorem visit_of_over {n : Nat} {v : Visit} {result : Except CompileError CompiledQuery}
    (h : feed.visit id params n = v) (hover : v.stage = .over result) {m : Nat} (hm : n ≤ m) :
    feed.visit id params m = v := by
  obtain ⟨k, rfl⟩ := Nat.exists_eq_add_of_le hm
  clear hm
  induction k with
  | zero => exact h
  | succ k ih => rw [← Nat.add_assoc, visit, ih, next, hover]

/-- The contacts of a source that has been opened and asked for some answers. -/
def contactsOf (answers : List Answer) : List Contact :=
  .opening (.ok ()) :: answers.map .read

theorem countP_isRead_contactsOf (answers : List Answer) :
    (contactsOf answers).countP Contact.isRead = answers.length := by
  simp [contactsOf, List.countP_map, Contact.isRead, Function.comp_def]

section
variable (hopen : feed.opening = .ok ())
include hopen

/-- As long as nothing is decided, every step is a read. -/
theorem visit_reading {n : Nat} {reader : Reader}
    (h : Reader.seeking.after? id (feed.first n) = some reader) :
    feed.visit id params (n + 1) =
      ⟨.reading (reader.walker (.ofList params)), contactsOf (feed.first n)⟩ := by
  induction n generalizing reader with
  | zero =>
    obtain rfl : Reader.seeking = reader := Option.some.inj h
    simp only [visit, next, hopen]
    rfl
  | succ n ih =>
    rw [first_succ, Reader.after?_append] at h
    obtain ⟨before, hbefore, hlast⟩ := Option.bind_eq_some_iff.1 h
    rw [Reader.after?_cons] at hlast
    rw [visit, ih hbefore, next]
    simp only [countP_isRead_contactsOf, length_first, Reader.walker_hear]
    cases hhear : before.hear id (feed.answer n) with
    | done => simp [hhear] at hlast
    | «continue» reader' =>
      obtain rfl : reader' = reader := by simpa [hhear, Reader.after?] using hlast
      simp [Reader.Progress.walked, contactsOf, first_succ]

/-- The read that decides is the last one, and the source is closed behind it. -/
theorem visit_over {last : Nat} {reader : Reader} {result : Except CompileError Statement}
    (hreader : Reader.seeking.after? id (feed.first last) = some reader)
    (hdone : reader.hear id (feed.answer last) = .done result) :
    feed.visit id params (last + 3) =
      ⟨.over (result.map fun statement => statement.compile (.ofList params)),
        contactsOf (feed.first (last + 1)) ++ [.closing]⟩ := by
  have hdecided : feed.visit id params (last + 2) =
      ⟨.decided (result.map fun statement => statement.compile (.ofList params)),
        contactsOf (feed.first (last + 1))⟩ := by
    rw [visit, visit_reading hopen hreader, next]
    simp only [countP_isRead_contactsOf, length_first, Reader.walker_hear, hdone]
    simp [Reader.Progress.walked, contactsOf, first_succ]
  rw [visit, hdecided, next]

end

/-- Some read decides, unless the reader is still on its way behind all of them. -/
theorem exists_decision (id : String) (n : Nat) :
    (∃ reader, Reader.seeking.after? id (feed.first n) = some reader) ∨
      ∃ last reader result, Reader.seeking.after? id (feed.first last) = some reader ∧
        reader.hear id (feed.answer last) = .done result := by
  induction n with
  | zero => exact .inl ⟨_, rfl⟩
  | succ n ih =>
    obtain ⟨reader, hreader⟩ | hdecided := ih
    · cases hhear : reader.hear id (feed.answer n) with
      | done result => exact .inr ⟨n, reader, result, hreader, hhear⟩
      | «continue» reader' =>
        refine .inl ⟨reader', ?_⟩
        rw [first_succ, Reader.after?_append, hreader]
        show reader.after? id [feed.answer n] = _
        rw [Reader.after?_cons, hhear]
        rfl
    · exact .inr hdecided

/-- Behind answers that have not decided, none of their beginnings has. -/
theorem after?_first_ne_none {last n : Nat} {reader : Reader}
    (h : Reader.seeking.after? id (feed.first last) = some reader) (hn : n ≤ last) :
    Reader.seeking.after? id (feed.first n) ≠ none := by
  intro hnone
  obtain ⟨rest, hrest⟩ := feed.first_prefix hn
  rw [← hrest, Reader.after?_append, hnone] at h
  cases h

end Feed

/-- A source answers as a feed does, to opening and to a number of reads. -/
def Source.AnswersAs (feed : Feed) (reads : Nat) : Source → Prop
  | .unavailable cause => feed.opening = .error cause
  | .answering answers =>
    feed.opening = .ok () ∧ ∀ i < reads, answers.getD i (.ok .endOfStream) = feed.answer i

namespace Feed

section
variable {feed : Feed} {id : String} {last : Nat} {reader : Reader}
  (hreader : Reader.seeking.after? id (feed.first last) = some reader) {answers : List Answer}
  (h : ∀ i < last + 1, answers.getD i (.ok .endOfStream) = feed.answer i)
include hreader h

/-- A source that answers as the feed does has enough answers for all the reads, with the end of
the stream that it adds by itself. -/
theorem take_answers :
    (answers ++ [Except.ok Event.endOfStream]).take (last + 1) = feed.first (last + 1) := by
  have hlong : last ≤ answers.length := by
    by_contra hshort
    have hend := h answers.length (by omega)
    rw [List.getD_eq_getElem?_getD, List.getElem?_eq_none (Nat.le_refl _), Option.getD_none] at hend
    have hstream : EndsStream (.ok .endOfStream) := rfl
    have hnone : Reader.seeking.after? id (feed.first last) = none :=
      Reader.after?_of_endsStream hstream
        (hend ▸ feed.answer_mem_first (Nat.lt_of_not_le hshort))
    rw [hnone] at hreader
    cases hreader
  refine List.ext_getElem (by simp; omega) fun i hi hi' => ?_
  rw [length_first] at hi'
  simp only [List.getElem_take, first, List.getElem_map, List.getElem_range, ← h i hi',
    List.getD_eq_getElem?_getD, List.getElem_append]
  split
  · next hinside => rw [List.getElem?_eq_getElem hinside, Option.getD_some]
  · next houtside =>
    rw [List.getElem?_eq_none (Nat.le_of_not_lt houtside), Option.getD_none,
      List.getElem_singleton]

/-- Reading such answers comes to what decides in the feed, at the same read. -/
theorem run_eq {result : Except CompileError Statement}
    (hdone : reader.hear id (feed.answer last) = .done result) :
    Reader.seeking.run id answers = (result, last + 1) := by
  rw [← Reader.run_endOfStream, ← List.take_append_drop (last + 1) (answers ++ _),
    take_answers hreader h, first_succ, List.append_assoc, Reader.run_append hreader,
    List.singleton_append, Reader.run_cons, hdone, length_first]

end

end Feed

/-- The contacts of a compilation with a source, and its result, are as they should be. -/
inductive Disciplined (feed : Feed) (id : String) :
    Except CompileError CompiledQuery → List Contact → Prop
  /-- What cannot be opened is left at that. -/
  | unavailable {cause : Markup.Error} : feed.opening = .error cause →
      Disciplined feed id (.error (.malformed cause)) [.opening (.error cause)]
  /-- What has been opened is read up to one answer, and is closed. In front of that answer the
  stream has not ended, no read has failed, and the selected statement has not ended. -/
  | visited {result : Except CompileError CompiledQuery} (last : Nat) : feed.opening = .ok () →
      (∀ answer ∈ feed.first last, ¬ EndsStream answer) →
      (∀ n ≤ last, ∀ events, feed.first n = events.map .ok → ¬ SelectedEnds id events) →
      Disciplined feed id result
        (.opening (.ok ()) :: (feed.first (last + 1)).map .read ++ [.closing])

/-- A source is read with discipline. If its stream ends some time, or a read fails, then the
compilation is over behind some number of steps, with a result and no contact more: the source has
been opened once, read no further than to what decides, and closed once behind that. A compilation
of any source that answers like that has this result, and these contacts. -/
theorem Feed.visit_disciplined (feed : Feed) (id : String) (params : List Param)
    (hends : feed.opening = .ok () → ∃ n, EndsStream (feed.answer n)) :
    ∃ steps result contacts,
      (∀ n, steps ≤ n → feed.visit id params n = ⟨.over result, contacts⟩) ∧
      Disciplined feed id result contacts ∧
      ∀ source : Source, source.AnswersAs feed (contacts.countP Contact.isRead) →
        compilation source id params = ⟨result, contacts⟩ := by
  cases hopen : feed.opening with
  | error cause =>
    have hover : feed.visit id params 1 =
        ⟨.over (.error (.malformed cause)), [.opening (.error cause)]⟩ := by
      simp only [visit, next, hopen, List.nil_append]
    refine ⟨1, _, _, fun n hn => visit_of_over hover rfl hn, .unavailable hopen, ?_⟩
    rintro (cause' | answers) hsource
    · obtain rfl : cause = cause' := Except.error.inj (hopen.symm.trans hsource)
      rfl
    · cases hopen.symm.trans hsource.1
  | ok _ =>
    obtain ⟨k, hk⟩ := hends hopen
    have hdecided : Reader.seeking.after? id (feed.first (k + 1)) = none :=
      Reader.after?_of_endsStream hk (feed.answer_mem_first k.lt_succ_self)
    obtain ⟨reader, hreader⟩ | ⟨last, reader, result, hreader, hdone⟩ :=
      feed.exists_decision id (k + 1)
    · rw [hdecided] at hreader
      cases hreader
    · have hover := @visit_over feed id params hopen last reader result hreader hdone
      refine ⟨last + 3, _, _, fun n hn => visit_of_over hover rfl hn, ?_, ?_⟩
      · refine .visited last hopen (fun answer hmem hends => ?_) fun n hn events heq hselected => ?_
        · rw [Reader.after?_of_endsStream hends hmem] at hreader
          cases hreader
        · exact after?_first_ne_none hreader hn (heq ▸ hselected.after?)
      · rintro (cause' | answers) hsource
        · cases hopen.symm.trans hsource
        · rw [List.countP_append, countP_isRead_contactsOf, length_first] at hsource
          simp only [compilation_answering, Reader.result, run_eq hreader hsource.2 hdone,
            take_answers hreader hsource.2]
          rfl

/-- A source that would fail behind the end of the selected statement is not asked there. -/
theorem Feed.visit_disciplined_failingBehind :
    let events : List Event :=
      [.start "sqlMap" [], .start "select" [("id", "q")], .text "SELECT 1", .finish "select"]
    let feed : Feed := ⟨.ok (), fun n => (events.map .ok).getD n (.error .closed)⟩
    (feed.opening = .ok () → ∃ n, EndsStream (feed.answer n)) ∧
      SelectedEnds "q" events ∧
      ∃ steps, ∀ n, steps ≤ n → (feed.visit "q" [] n).contacts =
        .opening (.ok ()) :: (events.map .ok).map .read ++ [.closing] := by
  intro events feed
  have hends : feed.opening = .ok () → ∃ n, EndsStream (feed.answer n) := fun _ => ⟨4, trivial⟩
  have hselected : SelectedEnds "q" events :=
    .start [] (by decide) (.selected "select"
      (show StatementKind.ofTag? "select" = some .select by decide) (by decide)
      (.text "SELECT 1" .nil))
  obtain ⟨steps, result, contacts, hvisit, -, -⟩ := feed.visit_disciplined "q" [] hends
  have hover := hvisit (max steps 6) (Nat.le_max_left ..)
  rw [visit_of_over (n := 6) rfl rfl (Nat.le_max_right ..)] at hover
  refine ⟨hends, hselected, steps, fun n hn => ?_⟩
  rw [hvisit n hn, ← hover]
  rfl

end SqlMaps.Template
