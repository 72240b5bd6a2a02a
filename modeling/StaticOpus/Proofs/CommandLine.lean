import StaticOpus.CommandLine

/-!
# What a command line asks for

A command line is complete when it is a command and then some of that command's flags, each at most
once and in any order. A complete one is run with just these flags, and so is one with a separator
behind it, but no other. Of a command line without a separator that is not complete, the first word
out of place decides: it asks for a page, or the command line is refused.

## Implementation notes

Words are read with the flags seen so far, so the lemmas about the words after a command are about
any flags that the command admits, and the flags read next go to their end.
-/

namespace StaticOpus

namespace Flag

/-- The word that switches a flag on. -/
def word : Flag → String
  | check => "--check"
  | quick => "--quick"
  | link => "--link"

/-- The command that a flag belongs to. -/
def owner : Flag → Verb
  | check => .headers
  | quick => .test
  | link => .test

end Flag

/-- Some flags that a command can be given: each is its own, and none is there twice. -/
structure Verb.Admits (verb : Verb) (flags : List Flag) : Prop where
  own : ∀ flag ∈ flags, flag.owner = verb
  distinct : flags.Nodup

/-- The command line of a command and some flags. -/
def Verb.line (verb : Verb) (flags : List Flag) : List String :=
  match verb with
  | headers => "headers" :: flags.map Flag.word
  | check => "check" :: flags.map Flag.word
  | test => "test" :: flags.map Flag.word

/-- The plan that a command with some flags leads to. Only tests need to know where the pinned codec
is. -/
inductive Verb.LeadsTo (library : Option (List UInt8)) (flags : List Flag) : Verb → Plan → Prop
  | headers : LeadsTo library flags .headers (Plan.headers (.check ∈ flags))
  | check : LeadsTo library flags .check Plan.check
  | test : LeadsTo library flags .test (Plan.test (.quick ∈ flags) (.link ∈ flags) library)

namespace CommandLine

/-- A complete command line. -/
def IsComplete (args : List String) : Prop :=
  ∃ verb flags, Verb.Admits verb flags ∧ args = verb.line flags

/-- The words before the first that is out of place: none, or a complete command line. -/
def IsWellBegun (earlier : List String) : Prop := earlier = [] ∨ IsComplete earlier

/-- A command line that names a command and gives it some flags: it is complete, and there is at
most a separator behind it. -/
def Names (verb : Verb) (flags : List Flag) (args : List String) : Prop :=
  verb.Admits flags ∧ (args = verb.line flags ∨ args = verb.line flags ++ ["--"])

end CommandLine

/-- A word that asks for help: in full, or by its letter with any letters after it. -/
def AsksForHelp (word : String) : Prop := word = "--help" ∨ "-h".toList <+: word.toList

/-- A word that asks for the version. -/
def AsksForVersion (word : String) : Prop := word = "--version" ∨ "-V".toList <+: word.toList

instance (word : String) : Decidable (AsksForHelp word) := inferInstanceAs (Decidable (_ ∨ _))

instance (word : String) : Decidable (AsksForVersion word) := inferInstanceAs (Decidable (_ ∨ _))

/-- The words after the word for help that there is a page about: none, or one command, or that word
itself. -/
def IsTopic (words : List String) : Prop :=
  words = [] ∨ ∃ topic ∈ ["help", "headers", "check", "test"], words = [topic]

/-- A word asks for a page between the words before it and those after it. A flag for help does so
anywhere, and a flag for the version, or the word for help, only in the place of the command. -/
def AsksForPage (earlier : List String) (word : String) (later : List String) : Prop :=
  AsksForHelp word ∨ earlier = [] ∧ (AsksForVersion word ∨ word = "help" ∧ IsTopic later)

theorem Flag.word_eq (flag : Flag) : flag.word = "--" ++ flag.name := by
  cases flag <;> decide

namespace Verb

variable {verb : Verb} {flags : List Flag}

theorem line_eq (verb : Verb) (flags : List Flag) :
    verb.line flags = verb.word :: flags.map Flag.word := by
  cases verb <;> rfl

theorem mem_flags_iff {flag : Flag} : flag ∈ verb.flags ↔ flag.owner = verb := by
  cases verb <;> cases flag <;> decide

/-- A command is read as the one whose plan its name and its flags lead to. -/
theorem leadsTo_iff {library : Option (List UInt8)} {plan : Plan} :
    verb.LeadsTo library flags plan ↔ plan = (verb.command flags).plan library := by
  constructor
  · rintro ⟨⟩ <;> rfl
  · rintro rfl
    cases verb with
    | headers => exact .headers
    | check => exact .check
    | test => exact .test

theorem ofWord?_eq_some_iff {word : String} : ofWord? word = some verb ↔ word = verb.word := by
  constructor
  · intro found
    have named := List.find?_some found
    simpa [eq_comm] using named
  · rintro rfl
    cases verb <;> decide

theorem flag?_eq_some {name : String} {flag : Flag} (found : verb.flag? name = some flag) :
    flag ∈ verb.flags ∧ flag.name = name := by
  refine ⟨List.mem_of_find?_eq_some found, ?_⟩
  simpa using List.find?_some found

theorem flag?_name {flag : Flag} (own : flag ∈ verb.flags) :
    verb.flag? flag.name = some flag := by
  revert own
  cases verb <;> cases flag <;> decide

theorem Admits.nil (verb : Verb) : verb.Admits [] := ⟨by simp, .nil⟩

/-- One more flag of a command that it was not given yet. -/
theorem Admits.concat (admits : verb.Admits flags) {flag : Flag} (own : flag ∈ verb.flags)
    (fresh : flag ∉ flags) : verb.Admits (flags ++ [flag]) where
  own := by
    intro other mem
    rcases List.mem_append.mp mem with before | last
    · exact admits.own other before
    · rw [List.mem_singleton.mp last]
      exact mem_flags_iff.mp own
  distinct := List.nodup_append.mpr
    ⟨admits.distinct, by simp, by
      rintro other mem last single rfl
      exact fresh (List.mem_singleton.mp single ▸ mem)⟩

end Verb

/-! ## The forms of words -/

namespace Word

variable {word : String}

theorem ofString_eq_separator (h : ofString word = .separator) : word = "--" := by
  unfold ofString at h
  split at h
  · next whole => exact String.toList_inj.mp whole
  · cases h
  · cases h
  · cases h

/-- A word of two hyphens and a name that takes no value is just that. -/
theorem ofString_eq_long_none {name : String} (h : ofString word = .long name none) :
    word = "--" ++ name := by
  unfold ofString at h
  split at h
  · cases h
  · next rest _ whole =>
      obtain ⟨named, valueless⟩ := Word.long.inj h
      have dropped : rest.dropWhile (· ≠ '=') = [] := by
        split at valueless
        · assumption
        · cases valueless
      have taken : rest.takeWhile (· ≠ '=') = rest := by
        have parts := List.takeWhile_append_dropWhile (p := (· ≠ '=')) (l := rest)
        rwa [dropped, List.append_nil] at parts
      apply String.toList_inj.mp
      rw [whole, ← named, taken]
      simp
  · cases h
  · cases h

theorem ofString_eq_letters_iff {first : Char} :
    ofString word = .letters first ↔ first ≠ '-' ∧ ['-', first] <+: word.toList := by
  constructor
  · intro h
    unfold ofString at h
    split at h
    · cases h
    · cases h
    · next rest _ letter whole =>
        obtain rfl := Word.letters.inj h
        exact ⟨letter, rest, whole.symm⟩
    · cases h
  · rintro ⟨letter, rest, whole⟩
    have read : word.toList = '-' :: first :: rest := whole.symm
    unfold ofString
    split
    · next same =>
        rw [read] at same
        cases same
        exact absurd rfl letter
    · next same =>
        rw [read] at same
        cases same
        exact absurd rfl letter
    · next same =>
        rw [read] at same
        cases same
        rfl
    · next other => exact absurd read (other first rest)

/-- A word is a name in full, or begins with its letter, exactly by its form. -/
theorem eq_or_prefix_iff {full name : String} {letter : Char} (spelled : full = "--" ++ name)
    (form : ofString full = .long name none) (sign : letter ≠ '-') :
    word = full ∨ ['-', letter] <+: word.toList ↔
      ofString word = .long name none ∨ ofString word = .letters letter := by
  rw [ofString_eq_letters_iff]
  constructor
  · rintro (rfl | letters)
    · exact Or.inl form
    · exact Or.inr ⟨sign, letters⟩
  · rintro (long | ⟨-, letters⟩)
    · exact Or.inl ((ofString_eq_long_none long).trans spelled.symm)
    · exact Or.inr letters

@[simp] theorem ofString_flag (flag : Flag) : ofString flag.word = .long flag.name none := by
  cases flag <;> decide

end Word

theorem asksForHelp_iff {word : String} :
    AsksForHelp word ↔
      Word.ofString word = .long "help" none ∨ Word.ofString word = .letters 'h' :=
  Word.eq_or_prefix_iff (by decide) (by decide) (by decide)

theorem asksForVersion_iff {word : String} :
    AsksForVersion word ↔
      Word.ofString word = .long "version" none ∨ Word.ofString word = .letters 'V' :=
  Word.eq_or_prefix_iff (by decide) (by decide) (by decide)

namespace Intent

variable {verb : Verb} {seen flags : List Flag} {word : String} {rest : List String}

/-! ## The words after a command -/

/-- A flag that the command admits is switched on, and reading goes on after it. -/
theorem ofFlags_flag {flag : Flag} (own : flag ∈ verb.flags) (fresh : flag ∉ seen) :
    ofFlags verb seen (flag.word :: rest) = ofFlags verb (seen ++ [flag]) rest := by
  have other : flag.name ≠ "help" := by cases flag <;> decide
  simp only [ofFlags, Word.ofString_flag, Verb.flag?_name own]
  rw [if_neg other, if_neg fresh]

/-- So are several such flags, one after the other. -/
theorem ofFlags_flags (admits : verb.Admits (seen ++ flags)) :
    ofFlags verb seen (flags.map Flag.word ++ rest) = ofFlags verb (seen ++ flags) rest := by
  induction flags generalizing seen with
  | nil => rw [List.append_nil, List.map_nil, List.nil_append]
  | cons flag more ih =>
      have own : flag ∈ verb.flags := Verb.mem_flags_iff.mpr (admits.own flag (by simp))
      have fresh : flag ∉ seen := by
        intro mem
        exact (List.nodup_append.mp admits.distinct).2.2 flag mem flag (by simp) rfl
      have apart : seen ++ flag :: more = (seen ++ [flag]) ++ more := by simp
      rw [apart] at admits ⊢
      rw [List.map_cons, List.cons_append, ofFlags_flag own fresh, ih admits]

theorem ofFlags_help (asks : AsksForHelp word) :
    ofFlags verb seen (word :: rest) = .page (.command verb) := by
  rcases asksForHelp_iff.mp asks with long | letter
  · simp only [ofFlags, long, if_pos, ofPageFlag]
  · simp only [ofFlags, letter, if_pos]

/-- A word that neither switches a flag on nor asks for help nor separates is refused. -/
theorem ofFlags_refused (no_separator : word ≠ "--") (no_help : ¬ AsksForHelp word)
    (no_flag : ∀ flag ∈ verb.flags, flag ∉ seen → word ≠ flag.word) (rest : List String) :
    ∃ fault, ofFlags verb seen (word :: rest) = .refuse fault := by
  rw [asksForHelp_iff, not_or] at no_help
  obtain ⟨no_long, no_letter⟩ := no_help
  cases form : Word.ofString word with
  | separator => exact absurd (Word.ofString_eq_separator form) no_separator
  | plain =>
      refine ⟨.unexpectedWord word, ?_⟩
      simp only [ofFlags, form]
  | letters first =>
      have other : first ≠ 'h' := by
        rintro rfl
        exact no_letter form
      refine ⟨.unexpectedWord (String.ofList ['-', first]), ?_⟩
      simp only [ofFlags, form, if_neg other]
  | long name value =>
      by_cases help : name = "help"
      · subst help
        cases value with
        | none => exact absurd form no_long
        | some value =>
            refine ⟨.unexpectedValue value "--help", ?_⟩
            simp only [ofFlags, form, if_pos, ofPageFlag]
            rfl
      · cases found : verb.flag? name with
        | none =>
            refine ⟨.unexpectedWord ("--" ++ name), ?_⟩
            simp only [ofFlags, form, if_neg help, found]
        | some flag =>
            obtain ⟨own, rfl⟩ := Verb.flag?_eq_some found
            cases value with
            | some value =>
                refine ⟨.unexpectedValue value flag.word, ?_⟩
                simp only [ofFlags, form, if_neg help, found, Flag.word_eq]
            | none =>
                have repeated : flag ∈ seen := Decidable.byContradiction fun fresh =>
                  no_flag flag own fresh ((Word.ofString_eq_long_none form).trans flag.word_eq.symm)
                refine ⟨.repeatedFlag flag, ?_⟩
                simp only [ofFlags, form, if_neg help, found, if_pos repeated]

/-- The next word after a command switches one more flag on, or separates, or asks for help, or it is
refused. -/
theorem ofFlags_word_cases (verb : Verb) (seen : List Flag) (word : String) (rest : List String) :
    (∃ flag ∈ verb.flags, flag ∉ seen ∧ word = flag.word) ∨ word = "--" ∨ AsksForHelp word ∨
      ∃ fault, ofFlags verb seen (word :: rest) = .refuse fault := by
  by_cases switch : ∃ flag ∈ verb.flags, flag ∉ seen ∧ word = flag.word
  · exact Or.inl switch
  by_cases separator : word = "--"
  · exact Or.inr (Or.inl separator)
  by_cases asks : AsksForHelp word
  · exact Or.inr (Or.inr (Or.inl asks))
  · have no_flag : ∀ flag ∈ verb.flags, flag ∉ seen → word ≠ flag.word :=
      fun flag own fresh same => switch ⟨flag, own, fresh, same⟩
    exact Or.inr (Or.inr (Or.inr (ofFlags_refused separator asks no_flag rest)))

/-- The words after a command are flags that it admits, or the first that is not asks for help, or
they are refused. -/
theorem ofFlags_cases (admits : verb.Admits seen) {words : List String}
    (no_separator : "--" ∉ words) :
    (∃ flags, verb.Admits (seen ++ flags) ∧ words = flags.map Flag.word) ∨
      (∃ flags word rest, verb.Admits (seen ++ flags) ∧
        words = flags.map Flag.word ++ word :: rest ∧ AsksForHelp word) ∨
      ∃ fault, ofFlags verb seen words = .refuse fault := by
  induction words generalizing seen with
  | nil => exact Or.inl ⟨[], by rwa [List.append_nil], rfl⟩
  | cons word rest ih =>
      rw [List.mem_cons, not_or] at no_separator
      rcases ofFlags_word_cases verb seen word rest with
        ⟨flag, own, fresh, rfl⟩ | separator | asks | refused
      · have apart (flags : List Flag) : seen ++ flag :: flags = (seen ++ [flag]) ++ flags := by
          simp
        rcases ih (admits.concat own fresh) no_separator.2 with
          ⟨flags, more, rfl⟩ | ⟨flags, word, later, more, rfl, asks⟩ | ⟨fault, refused⟩
        · exact Or.inl ⟨flag :: flags, apart flags ▸ more, rfl⟩
        · exact Or.inr (Or.inl ⟨flag :: flags, word, later, apart flags ▸ more, rfl, asks⟩)
        · exact Or.inr (Or.inr ⟨fault, (ofFlags_flag own fresh).trans refused⟩)
      · exact absurd separator.symm no_separator.1
      · exact Or.inr (Or.inl ⟨[], word, rest, by rwa [List.append_nil], rfl, asks⟩)
      · exact Or.inr (Or.inr refused)

theorem ofFlags_separator (verb : Verb) (seen : List Flag) (rest : List String) :
    ofFlags verb seen ("--" :: rest) =
      match rest with
      | [] => .run (verb.command seen)
      | plain :: _ => .refuse (.unexpectedWord plain) := by
  cases rest <;> rfl

/-- Words after a command that have it run are flags that it admits, with at most a separator behind
them. -/
theorem flags_of_ofFlags_eq_run (admits : verb.Admits seen) {words : List String}
    {command : Command} (run : ofFlags verb seen words = .run command) :
    ∃ flags, verb.Admits (seen ++ flags) ∧ command = verb.command (seen ++ flags) ∧
      (words = flags.map Flag.word ∨ words = flags.map Flag.word ++ ["--"]) := by
  induction words generalizing seen with
  | nil =>
      obtain rfl := Intent.run.inj run
      exact ⟨[], by rwa [List.append_nil], by rw [List.append_nil], Or.inl rfl⟩
  | cons word rest ih =>
      rcases ofFlags_word_cases verb seen word rest with
        ⟨flag, own, fresh, rfl⟩ | rfl | asks | ⟨fault, refused⟩
      · rw [ofFlags_flag own fresh] at run
        obtain ⟨flags, more, rfl, words⟩ := ih (admits.concat own fresh) run
        have apart : (seen ++ [flag]) ++ flags = seen ++ flag :: flags := by simp
        rw [apart] at more ⊢
        exact ⟨flag :: flags, more, rfl,
          words.imp (congrArg (flag.word :: ·)) (congrArg (flag.word :: ·))⟩
      · rw [ofFlags_separator] at run
        cases rest with
        | nil =>
            obtain rfl := Intent.run.inj run
            exact ⟨[], by rwa [List.append_nil], by rw [List.append_nil], Or.inr rfl⟩
        | cons plain more => cases run
      · rw [ofFlags_help asks] at run
        cases run
      · rw [refused] at run
        cases run

/-! ## Whole command lines -/

theorem ofArgs_verb (verb : Verb) (rest : List String) :
    ofArgs (verb.word :: rest) = ofFlags verb [] rest := by
  simp only [ofArgs, Verb.ofWord?_eq_some_iff.mpr rfl]

/-- A command line is run that names a command, with the flags that it gives. -/
theorem ofArgs_eq_run {args : List String} (names : CommandLine.Names verb flags args) :
    ofArgs args = .run (verb.command flags) := by
  obtain ⟨admits, whole⟩ := names
  have read (last : List String) :
      ofArgs (verb.line flags ++ last) = ofFlags verb flags last := by
    rw [Verb.line_eq]
    exact (ofArgs_verb verb _).trans (ofFlags_flags admits)
  rcases whole with rfl | rfl
  · have line := read []
    rwa [List.append_nil] at line
  · rw [read, ofFlags_separator]

/-- A flag for help or for the version shows a page in the place of the command. -/
theorem ofArgs_pageFlag (asks : AsksForHelp word ∨ AsksForVersion word) (rest : List String) :
    ∃ page, ofArgs (word :: rest) = .page page := by
  rw [asksForHelp_iff, asksForVersion_iff] at asks
  have no_verb : Verb.ofWord? word = none := by
    rw [Option.eq_none_iff_forall_ne_some]
    intro verb named
    obtain rfl := Verb.ofWord?_eq_some_iff.mp named
    revert asks
    cases verb <;> decide
  have no_topic : word ≠ helpWord := by
    rintro rfl
    revert asks
    decide
  rcases asks with (help | letter) | version | letter
  · refine ⟨.overview, ?_⟩
    simp only [ofArgs, no_verb, if_neg no_topic, help, if_pos, ofPageFlag]
  · refine ⟨.overview, ?_⟩
    simp only [ofArgs, no_verb, if_neg no_topic, letter, if_pos]
  · refine ⟨.version, ?_⟩
    have other : "version" ≠ "help" := by decide
    simp only [ofArgs, no_verb, if_neg no_topic, version, if_neg other, if_pos, ofPageFlag]
  · refine ⟨.version, ?_⟩
    have other : 'V' ≠ 'h' := by decide
    simp only [ofArgs, no_verb, if_neg no_topic, letter, if_neg other, if_pos]

theorem ofArgs_help (rest : List String) : ofArgs ("help" :: rest) = ofTopic rest := rfl

theorem isTopic_iff {words : List String} :
    IsTopic words ↔ words = [] ∨
      ∃ topic, words = [topic] ∧ (topic = helpWord ∨ ∃ verb : Verb, topic = verb.word) := by
  have known (topic : String) : topic ∈ ["help", "headers", "check", "test"] ↔
      topic = helpWord ∨ ∃ verb : Verb, topic = verb.word := by
    simp only [List.mem_cons, List.not_mem_nil, or_false]
    constructor
    · rintro (rfl | rfl | rfl | rfl)
      · exact Or.inl rfl
      · exact Or.inr ⟨.headers, rfl⟩
      · exact Or.inr ⟨.check, rfl⟩
      · exact Or.inr ⟨.test, rfl⟩
    · rintro (rfl | ⟨verb, rfl⟩)
      · exact Or.inl rfl
      · cases verb with
        | headers => exact Or.inr (Or.inl rfl)
        | check => exact Or.inr (Or.inr (Or.inl rfl))
        | test => exact Or.inr (Or.inr (Or.inr rfl))
  simp only [IsTopic, known, and_comm]

theorem ofTopic_page (topic : IsTopic rest) : ∃ page, ofTopic rest = .page page := by
  rcases isTopic_iff.mp topic with rfl | ⟨topic, rfl, rfl | ⟨verb, rfl⟩⟩
  · exact ⟨.overview, rfl⟩
  · exact ⟨.help, by decide⟩
  · refine ⟨.command verb, ?_⟩
    simp only [ofTopic, Verb.ofWord?_eq_some_iff.mpr rfl]

theorem ofTopic_refused (no_topic : ¬ IsTopic rest) : ∃ fault, ofTopic rest = .refuse fault := by
  match rest, no_topic with
  | [], no_topic => exact absurd (Or.inl rfl) no_topic
  | [topic], no_topic =>
      rw [isTopic_iff] at no_topic
      have other : topic ≠ helpWord := fun same => no_topic (Or.inr ⟨topic, rfl, Or.inl same⟩)
      cases named : Verb.ofWord? topic with
      | some verb =>
          have same := Verb.ofWord?_eq_some_iff.mp named
          exact absurd (Or.inr ⟨topic, rfl, Or.inr ⟨verb, same⟩⟩) no_topic
      | none =>
          refine ⟨.unknownCommand topic, ?_⟩
          simp only [ofTopic, named, if_neg other]
  | topic :: next :: more, _ =>
      by_cases known : (Verb.ofWord? topic).isSome ∨ topic = helpWord
      · exact ⟨.unknownCommand next, if_pos known⟩
      · exact ⟨.unknownCommand topic, if_neg known⟩

/-- A page that is asked for in the place of the command is shown. -/
theorem ofArgs_page (asks : AsksForPage [] word rest) :
    ∃ page, ofArgs (word :: rest) = .page page := by
  obtain asks | ⟨rfl, topic⟩ : (AsksForHelp word ∨ AsksForVersion word) ∨
      word = "help" ∧ IsTopic rest := by
    rcases asks with help | ⟨-, version | topic⟩
    · exact Or.inl (Or.inl help)
    · exact Or.inl (Or.inr version)
    · exact Or.inr topic
  · exact ofArgs_pageFlag asks rest
  · rw [ofArgs_help]
    exact ofTopic_page topic

/-- In the place of the command a word is refused that names none, asks for no page and is no
separator. -/
theorem ofArgs_refused (no_separator : word ≠ "--") (no_page : ¬ AsksForPage [] word rest)
    (no_verb : ∀ verb : Verb, word ≠ verb.word) :
    ∃ fault, ofArgs (word :: rest) = .refuse fault := by
  simp only [AsksForPage, asksForHelp_iff, asksForVersion_iff, true_and, not_or] at no_page
  obtain ⟨⟨no_help, no_help_letter⟩, ⟨no_version, no_version_letter⟩, no_topic⟩ := no_page
  have unnamed : Verb.ofWord? word = none := by
    rw [Option.eq_none_iff_forall_ne_some]
    exact fun verb named => no_verb verb (Verb.ofWord?_eq_some_iff.mp named)
  by_cases topic : word = helpWord
  · subst topic
    exact ofTopic_refused fun known => no_topic ⟨rfl, known⟩
  cases form : Word.ofString word with
  | separator => exact absurd (Word.ofString_eq_separator form) no_separator
  | plain =>
      refine ⟨.unknownCommand word, ?_⟩
      simp only [ofArgs, unnamed, if_neg topic, form]
  | letters first =>
      have help : first ≠ 'h' := by
        rintro rfl
        exact no_help_letter form
      have version : first ≠ 'V' := by
        rintro rfl
        exact no_version_letter form
      refine ⟨.unexpectedWord (String.ofList ['-', first]), ?_⟩
      simp only [ofArgs, unnamed, if_neg topic, form, if_neg help, if_neg version]
  | long name value =>
      cases value with
      | none =>
          have help : name ≠ "help" := by
            rintro rfl
            exact no_help form
          have version : name ≠ "version" := by
            rintro rfl
            exact no_version form
          refine ⟨.unexpectedWord ("--" ++ name), ?_⟩
          simp only [ofArgs, unnamed, if_neg topic, form, if_neg help, if_neg version]
      | some value =>
          simp only [ofArgs, unnamed, if_neg topic, form, ofPageFlag]
          by_cases help : name = "help"
          · exact ⟨_, if_pos help⟩
          · by_cases version : name = "version"
            · rw [if_neg help]
              exact ⟨_, if_pos version⟩
            · rw [if_neg help]
              exact ⟨_, if_neg version⟩

theorem ofArgs_separator (rest : List String) : ∃ fault, ofArgs ("--" :: rest) = .refuse fault := by
  have read : ofArgs ("--" :: rest) = ofSeparated rest := rfl
  rw [read]
  cases rest with
  | nil => exact ⟨.noCommand, rfl⟩
  | cons word more =>
      by_cases known : (Verb.ofWord? word).isSome ∨ word = helpWord
      · exact ⟨.unexpectedWord word, if_pos known⟩
      · exact ⟨.unknownCommand word, if_neg known⟩

/-- The first word names a command, or asks for a page, or it is refused. -/
theorem ofArgs_word_cases (word : String) (rest : List String) :
    (∃ verb : Verb, word = verb.word) ∨ AsksForPage [] word rest ∨
      ∃ fault, ofArgs (word :: rest) = .refuse fault := by
  by_cases named : ∃ verb : Verb, word = verb.word
  · exact Or.inl named
  by_cases asks : AsksForPage [] word rest
  · exact Or.inr (Or.inl asks)
  refine Or.inr (Or.inr ?_)
  by_cases separator : word = "--"
  · rw [separator]
    exact ofArgs_separator rest
  · have no_verb : ∀ verb : Verb, word ≠ verb.word := fun verb same => named ⟨verb, same⟩
    exact ofArgs_refused separator asks no_verb

/-- A command line without a separator is complete, or the first word out of place asks for a page,
or it is refused. -/
theorem ofArgs_cases {args : List String} (no_separator : "--" ∉ args) :
    CommandLine.IsComplete args ∨
      (∃ earlier word later, args = earlier ++ word :: later ∧ CommandLine.IsWellBegun earlier ∧
        AsksForPage earlier word later) ∨
      ∃ fault, ofArgs args = .refuse fault := by
  cases args with
  | nil => exact Or.inr (Or.inr ⟨.noCommand, rfl⟩)
  | cons word rest =>
      rcases ofArgs_word_cases word rest with ⟨verb, rfl⟩ | asks | refused
      · rw [List.mem_cons, not_or] at no_separator
        rcases ofFlags_cases (.nil verb) no_separator.2 with
          ⟨flags, admits, rfl⟩ | ⟨flags, word, later, admits, rfl, asks⟩ | ⟨fault, refused⟩
        · exact Or.inl ⟨verb, flags, admits, (verb.line_eq flags).symm⟩
        · have line : verb.word :: (flags.map Flag.word ++ word :: later) =
              verb.line flags ++ word :: later := by
            rw [verb.line_eq, List.cons_append]
          exact Or.inr (Or.inl ⟨verb.line flags, word, later, line,
            Or.inr ⟨verb, flags, admits, rfl⟩, Or.inl asks⟩)
        · exact Or.inr (Or.inr ⟨fault, (ofArgs_verb verb rest).trans refused⟩)
      · exact Or.inr (Or.inl ⟨[], word, rest, rfl, Or.inl rfl, asks⟩)
      · exact Or.inr (Or.inr refused)

/-- A command line is run only if it names a command, and then with the flags that it gives. -/
theorem ofArgs_eq_run_iff {args : List String} {command : Command} :
    ofArgs args = .run command ↔
      ∃ verb flags, CommandLine.Names verb flags args ∧ command = verb.command flags := by
  constructor
  · intro run
    cases args with
    | nil => cases run
    | cons word rest =>
        rcases ofArgs_word_cases word rest with ⟨verb, rfl⟩ | asks | ⟨fault, refused⟩
        · rw [ofArgs_verb] at run
          obtain ⟨flags, admits, rfl, words⟩ := flags_of_ofFlags_eq_run (.nil verb) run
          refine ⟨verb, flags, ⟨admits, ?_⟩, rfl⟩
          rw [Verb.line_eq]
          exact words.imp (congrArg (verb.word :: ·)) (congrArg (verb.word :: ·))
        · obtain ⟨page, shown⟩ := ofArgs_page asks
          rw [shown] at run
          cases run
        · rw [refused] at run
          cases run
  · rintro ⟨verb, flags, names, rfl⟩
    exact ofArgs_eq_run names

/-- A page is shown that is asked for before anything is out of place. -/
theorem exists_page {earlier : List String} (begun : CommandLine.IsWellBegun earlier)
    (asks : AsksForPage earlier word rest) :
    ∃ page, ofArgs (earlier ++ word :: rest) = .page page := by
  rcases begun with rfl | ⟨verb, flags, admits, rfl⟩
  · exact ofArgs_page asks
  · have help : AsksForHelp word := by simpa [AsksForPage, Verb.line_eq] using asks
    have read : ofFlags verb [] (flags.map Flag.word ++ word :: rest) =
        ofFlags verb flags (word :: rest) := ofFlags_flags admits
    refine ⟨.command verb, ?_⟩
    rw [Verb.line_eq, List.cons_append, ofArgs_verb, read, ofFlags_help help]

end Intent

end StaticOpus
