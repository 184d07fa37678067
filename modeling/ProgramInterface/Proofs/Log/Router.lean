import ProgramInterface.Log.Router

/-!
# Setting up the log

An attempt to set up the log either finds the level and leaves one handler, its own, or fails and leaves
the router as it was (`attempt_known`, `attempt_unknown`). So after any number of attempts the router is
that of the last one that succeeded, and what it writes goes to the stream of that one, as long as the
record has a form, the stream takes it, and no handler stands above that of the router
(`set_ups_settle`, `records_not_written_once`).
-/

namespace ProgramInterface

namespace Log

/-! ## Levels -/

/-- Whether a level that is asked for is a given one: a number is itself, a word stands for the level of
the known word that it is in upper case. -/
inductive LevelChoice.Means : LevelChoice → Int → Prop
  | number (level : Int) : Means (.number level) level
  | name {word : Text} {entry : String × Int} : entry ∈ levelWords →
      Text.ofString entry.1 = word.upper → Means (.name word) entry.2

/-- Whether a level is asked for by a word that is no known one in upper case. -/
def LevelChoice.IsUnknown (choice : LevelChoice) : Prop :=
  ∃ word, choice = .name word ∧ ∀ entry ∈ levelWords, Text.ofString entry.1 ≠ word.upper

theorem level_of_eq_some {word : Text} {level : Int} (h : levelOf? word = some level) :
    ∃ entry ∈ levelWords, Text.ofString entry.1 = word ∧ entry.2 = level := by
  obtain ⟨entry, hfound, hlevel⟩ := Option.map_eq_some_iff.1 h
  exact ⟨entry, List.mem_of_find?_eq_some hfound, by simpa using List.find?_some hfound, hlevel⟩

theorem level_of_eq_none {word : Text} :
    levelOf? word = none ↔ ∀ entry ∈ levelWords, Text.ofString entry.1 ≠ word := by
  simp [levelOf?]

/-- No two known words are the same. -/
theorem level_of_word {entry : String × Int} (h : entry ∈ levelWords) :
    levelOf? (Text.ofString entry.1) = some entry.2 := by
  have hwords : ∀ entry ∈ levelWords, levelOf? (Text.ofString entry.1) = some entry.2 := by decide
  exact hwords entry h

/-- The description of an unknown level is no known word: its second letter is in lower case. -/
theorem level_of_description (word : Text) : levelOf? ("Level " ++ word) = none := by
  have hwords : ∀ entry ∈ levelWords, (Text.ofString entry.1)[1]? ≠ some (.scalar 'e') := by decide
  have hletter : (Text.ofString "Level " ++ word)[1]? = some (.scalar 'e') := by
    rw [List.getElem?_append_left (by decide)]
    decide
  refine level_of_eq_none.2 fun entry hentry heq => hwords entry hentry ?_
  rw [heq]
  exact hletter

/-- A level is asked for by number or by a known word, unless the word is unknown. -/
theorem LevelChoice.means_or_unknown (choice : LevelChoice) :
    (∃ level, choice.Means level) ∨ choice.IsUnknown := by
  cases choice with
  | number level => exact .inl ⟨level, .number level⟩
  | name word =>
      cases hfound : levelOf? word.upper with
      | some level =>
          obtain ⟨entry, hentry, hword, _⟩ := level_of_eq_some hfound
          exact .inl ⟨entry.2, .name hentry hword⟩
      | none => exact .inr ⟨word, rfl, level_of_eq_none.1 hfound⟩

variable {choice : LevelChoice} {level : Int}

theorem LevelChoice.Means.check_look_up (h : choice.Means level) :
    choice.lookUp.check = .ok level := by
  cases h with
  | number => rfl
  | name hentry hword => rw [lookUp, ← hword, level_of_word hentry, check]

theorem LevelChoice.check_look_up_unknown {word : Text}
    (h : ∀ entry ∈ levelWords, Text.ofString entry.1 ≠ word.upper) :
    (name word).lookUp.check = .error ⟨"Level " ++ word.upper⟩ := by
  rw [lookUp, level_of_eq_none.2 h, check, level_of_description]

/-! ## One attempt -/

namespace Router

variable {router : Router} {call : SetUp}

/-- An attempt goes on to the handlers if the level is found, and else stops before it changes
anything. -/
theorem attempt_eq (router : Router) (call : SetUp) :
    router.attempt call =
      match call.choice.lookUp.check with
      | .ok level => (.ok (), ⟨level, [call.handler]⟩)
      | .error fault => (.error fault, router) := by
  unfold attempt configure setLevel
  cases call.choice.lookUp.check <;> rfl

/-- With a known level only the handler of the attempt is left. -/
theorem attempt_known (h : call.choice.Means level) (router : Router) :
    router.attempt call = (.ok (), ⟨level, [call.handler]⟩) := by
  rw [attempt_eq, h.check_look_up]

/-- With an unknown level the router stays as it is. -/
theorem attempt_unknown (h : call.choice.IsUnknown) (router : Router) :
    ∃ fault, router.attempt call = (.error fault, router) := by
  obtain ⟨word, hchoice, hnone⟩ := h
  refine ⟨⟨"Level " ++ word.upper⟩, ?_⟩
  rw [attempt_eq, hchoice, LevelChoice.check_look_up_unknown hnone]

/-- An attempt fails exactly on an unknown level. -/
theorem attempt_fails_iff (router : Router) (call : SetUp) :
    (∃ fault, (router.attempt call).1 = .error fault) ↔ call.choice.IsUnknown := by
  constructor
  · rintro ⟨fault, hfault⟩
    refine call.choice.means_or_unknown.resolve_left ?_
    rintro ⟨level, hmeans⟩
    rw [attempt_known hmeans] at hfault
    cases hfault
  · intro hunknown
    obtain ⟨fault, heq⟩ := attempt_unknown hunknown router
    exact ⟨fault, congrArg (·.1) heq⟩

/-! ## Any number of attempts -/

/-- The router after some attempts to set it up. -/
def after (router : Router) (calls : List SetUp) : Router :=
  calls.foldl (fun router call => (router.attempt call).2) router

theorem after_append (router : Router) (front back : List SetUp) :
    router.after (front ++ back) = (router.after front).after back :=
  List.foldl_append ..

theorem after_unknown {calls : List SetUp} (h : ∀ call ∈ calls, call.choice.IsUnknown) :
    router.after calls = router := by
  induction calls with
  | nil => rfl
  | cons call rest ih =>
      obtain ⟨hcall, hrest⟩ := List.forall_mem_cons.1 h
      obtain ⟨_, hattempt⟩ := attempt_unknown hcall router
      rw [after, List.foldl_cons, hattempt]
      exact ih hrest

/-- Whatever was tried before and failed behind it, an attempt that succeeded sets the router up. -/
theorem after_known {last : SetUp} (h : last.choice.Means level) (earlier : List SetUp)
    {later : List SetUp} (hlater : ∀ call ∈ later, call.choice.IsUnknown) :
    router.after (earlier ++ last :: later) = ⟨level, [last.handler]⟩ := by
  rw [after_append, after, List.foldl_cons, attempt_known h]
  exact after_unknown hlater

/-- With one handler and none above it, what comes of a record that the router admits is what the handler
makes of it. -/
theorem deliveries_single {handler : Handler} {around : Surroundings} {record : Record}
    (houter : around.outer = []) (hlevel : 0 < level) (hrecord : level ≤ record.level) :
    (⟨level, [handler]⟩ : Router).deliveries around record =
      (handler.deliver? around record).toList := by
  have hleast : (⟨level, [handler]⟩ : Router).leastLevel = level :=
    if_neg (Int.ne_of_gt hlevel)
  have hadmits : (⟨level, [handler]⟩ : Router).admits record.level = true := by
    rw [admits, hleast, Bool.and_eq_true, decide_eq_true_eq, decide_eq_true_eq]
    exact ⟨Int.lt_of_lt_of_le hlevel hrecord, hrecord⟩
  rw [deliveries, if_pos hadmits, houter, List.append_nil]
  cases hdeliver : handler.deliver? around record <;> simp [hdeliver]

end Router

section
variable (handler : Handler) {around : Surroundings} {record : Record}

/-- A handler writes the line of a record that has one, if its stream takes it. -/
theorem deliver_line {line : Text} (hline : handler.format.write? record = some line)
    (htakes : around.takes handler.stream (line ++ Text.ofString "\n") = true) :
    handler.deliver? around record = some (.text handler.stream (line ++ Text.ofString "\n")) := by
  rw [Handler.deliver?, hline]
  exact if_pos htakes

/-- A handler reports a failure on the error output, if a record has no line that its stream takes. -/
theorem deliver_failure (h : ∀ line : Text, handler.format.write? record = some line →
      around.takes handler.stream (line ++ Text.ofString "\n") = false) :
    handler.deliver? around record = around.errors.map .failure := by
  rw [Handler.deliver?]
  split
  · rename_i line hline
    exact if_neg (by rw [h line hline]; exact Bool.false_ne_true)
  · rfl

end

/-- The last of some attempts that has a known level. -/
theorem exists_last_known (calls : List SetUp) :
    (∀ call ∈ calls, call.choice.IsUnknown) ∨
      ∃ earlier last later level, calls = earlier ++ last :: later ∧ last.choice.Means level ∧
        ∀ call ∈ later, call.choice.IsUnknown := by
  induction calls with
  | nil => exact .inl nofun
  | cons call rest ih =>
      rcases ih with hrest | ⟨earlier, last, later, level, rfl, hlast, hlater⟩
      · rcases call.choice.means_or_unknown with ⟨level, hmeans⟩ | hunknown
        · exact .inr ⟨[], call, rest, level, rfl, hmeans, hrest⟩
        · exact .inl (List.forall_mem_cons.2 ⟨hunknown, hrest⟩)
      · exact .inr ⟨call :: earlier, last, later, level, rfl, hlast, hlater⟩

/-- An attempt to set up the log fails exactly if its level is an unknown word, and then changes
nothing. After any attempts the router is as it was at the start, if all of them failed; otherwise it has
the level and the one handler of the last that succeeded. A record at or above that level, if this is
positive, is then written once, to the stream of that handler only, if no handler stands above it, the
record has a form in its format, and the stream takes this form. Without a form that the stream takes,
nothing comes of the record but a failure that is reported on the error output. -/
theorem set_ups_settle :
    (∀ (router : Router) (call : SetUp),
      ((∃ fault, (router.attempt call).1 = .error fault) ↔ call.choice.IsUnknown) ∧
        (call.choice.IsUnknown → (router.attempt call).2 = router)) ∧
    ∀ calls : List SetUp,
      ((∀ call ∈ calls, call.choice.IsUnknown) ∧ Router.start.after calls = .start) ∨
      ∃ earlier last later level stream, calls = earlier ++ last :: later ∧
        last.choice.Means level ∧ (∀ call ∈ later, call.choice.IsUnknown) ∧
        stream = last.stream.getD last.errors ∧
        Router.start.after calls = ⟨level, [⟨last.format, stream⟩]⟩ ∧
        ∀ (around : Surroundings) (record : Record), around.outer = [] → 0 < level →
          level ≤ record.level →
          (∀ line : Text, last.format.write? record = some line →
            around.takes stream (line ++ "\n") = true →
            (Router.start.after calls).deliveries around record = [.text stream (line ++ "\n")]) ∧
          ((∀ line : Text, last.format.write? record = some line →
            around.takes stream (line ++ "\n") = false) →
            (Router.start.after calls).deliveries around record =
              around.errors.toList.map .failure) := by
  refine ⟨fun router call => ⟨Router.attempt_fails_iff router call, fun hunknown => ?_⟩,
    fun calls => ?_⟩
  · obtain ⟨_, hattempt⟩ := Router.attempt_unknown hunknown router
    rw [hattempt]
  · rcases exists_last_known calls with hall | ⟨earlier, last, later, level, rfl, hlast, hlater⟩
    · exact .inl ⟨hall, Router.after_unknown hall⟩
    · have hafter : Router.start.after (earlier ++ last :: later) = ⟨level, [last.handler]⟩ :=
        Router.after_known hlast earlier hlater
      refine .inr ⟨earlier, last, later, level, last.handler.stream, rfl, hlast, hlater, rfl, hafter,
        fun around record houter hpos hle => ?_⟩
      rw [hafter, Router.deliveries_single houter hpos hle]
      refine ⟨fun line hline htakes => ?_, fun hnone => ?_⟩
      · rw [deliver_line last.handler hline htakes]
        rfl
      · rw [deliver_failure last.handler hnone]
        cases around.errors <;> rfl

/-- A set-up for the error output, one in another format for a stream, and one that fails: records go to
the stream only. -/
theorem set_ups_settle_mixed :
    let calls : List SetUp := [⟨.name "INFO", .plain, none, .standard⟩,
      ⟨.name "Debug", .json, some ⟨1⟩, .standard⟩, ⟨.name "LOUD", .plain, some ⟨2⟩, .standard⟩]
    let record : Record := ⟨30, "arch_idl.server", Text.ofString "Rejected", [], none, 0⟩
    Router.start.after calls = ⟨10, [⟨.json, ⟨1⟩⟩]⟩ ∧
      ∃ line, jsonLine? record = some line ∧
        (Router.start.after calls).deliveries .ordinary record =
          [.text ⟨1⟩ (line ++ Text.ofString "\n")] := by
  intro calls record
  have hvalue : Router.start.after calls = ⟨10, [⟨.json, ⟨1⟩⟩]⟩ := by decide
  have hline : (jsonLine? record).isSome = true := by decide
  obtain ⟨line, hline⟩ := Option.isSome_iff_exists.1 hline
  refine ⟨hvalue, line, hline, ?_⟩
  rcases set_ups_settle.2 calls with
    ⟨_, hstart⟩ | ⟨_, last, _, level, stream, _, _, _, _, hafter, hrecords⟩
  · exact absurd (hvalue.symm.trans hstart) (by decide)
  · obtain ⟨rfl, hhandler⟩ := Router.mk.inj (hvalue.symm.trans hafter)
    obtain ⟨hformat, rfl⟩ := Handler.mk.inj (List.cons.inj hhandler).1
    refine (hrecords .ordinary record rfl (by decide) (by decide)).1 line ?_ rfl
    rw [← hformat]
    exact hline

/-- Three ways in which a record at the level of the one handler is not written once, to its stream only:
its time is one that the calendar does not show, the stream does not take its line, or another handler
stands above. -/
theorem records_not_written_once :
    let router := Router.start.after [⟨.name "INFO", .plain, none, .standard⟩]
    let record (time : Int) : Record := ⟨20, "arch_idl.x", Text.ofString "m", [], none, time⟩
    let line : Text := "1970-01-01 00:00:00 [INFO] arch_idl.x: m\n"
    router = ⟨20, [⟨.plain, .standard⟩]⟩ ∧
      router.deliveries .ordinary (record 100000000000000000) = [.failure .standard] ∧
      router.deliveries { Surroundings.ordinary with takes := fun _ _ => false } (record 0) =
        [.failure .standard] ∧
      router.deliveries { Surroundings.ordinary with outer := [⟨.plain, ⟨1⟩⟩] } (record 0) =
        [.text .standard line, .text ⟨1⟩ line] := by
  decide

end Log

end ProgramInterface
