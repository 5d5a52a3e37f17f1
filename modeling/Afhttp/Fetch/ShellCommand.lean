import Mathlib
import Afhttp.Lib.ShellWords

/-!
# The recommended command

`NextAction` and `prepare_takeover_retry` of `sdk/fetch/result.rs`: the command that a person is told
to run next, put together from the request URL, the tab, the endpoint and the profile.

    a quoted string is one word of the shell, which stands for it          (quotedWord_reads)
    the command's argument vector is the intended one                      (prepareTakeoverRetry_argv)
-/

namespace Afhttp.Fetch

open ShellWords

/-! ## The command -/

/-- A byte of `value.bytes()` that needs no quotes; no byte of another character is one. -/
def isSafeChar (c : Char) : Bool := c.isAlphanum || ['_', '-', '.', '/', ':', ',', '='].contains c

/-- `value.replace('\'', "'\\''")`. -/
def escapeQuotes (value : String) : String :=
  String.ofList (value.toList.flatMap fun c => if c = '\'' then ['\'', '\\', '\'', '\''] else [c])

def isSafe (value : String) : Bool := !value.isEmpty && value.toList.all isSafeChar

def shellQuote (value : String) : String :=
  if isSafe value then value else "'" ++ escapeQuotes value ++ "'"

inductive NextActionKind where
  | humanTakeover
  deriving DecidableEq

structure NextAction where
  kind : NextActionKind
  recommendedCommand : String
  targetContentVerified : Bool
  takeoverUrlSecret : Option String
  takeoverUrlExpiresAtRfc3339 : Option String
  takeoverUrlTtlS : Option UInt64
  takeoverUrlScope : Option String

def NextAction.humanTakeover (url : String) : NextAction where
  kind := .humanTakeover
  recommendedCommand := "afhttp fetch " ++ shellQuote url ++ " --takeover"
  targetContentVerified := false
  takeoverUrlSecret := none
  takeoverUrlExpiresAtRfc3339 := none
  takeoverUrlTtlS := none
  takeoverUrlScope := none

/-- What of a `FetchResult` the recommended command is made of. -/
structure TakeoverResult where
  requestUrl : String
  tabId : Option String
  nextAction : Option NextAction

/-- The command of `prepare_takeover_retry`. -/
def retryCommand (url tab : String) (endpoint profile : Option String) : String :=
  let command := "afhttp fetch " ++ shellQuote url ++ " --takeover --tab " ++ shellQuote tab
  let command := match endpoint with
    | some endpoint => command ++ " --endpoint-url " ++ shellQuote endpoint
    | none => command
  match profile with
  | some profile => command ++ " --profile " ++ shellQuote profile
  | none => command

def TakeoverResult.prepareTakeoverRetry (r : TakeoverResult) (endpoint profile : Option String) :
    TakeoverResult :=
  match r.nextAction, r.tabId with
  | some next, some tab =>
    let command := retryCommand r.requestUrl tab endpoint profile
    { r with nextAction := some { next with recommendedCommand := command } }
  | _, _ => r

/-! ## Words -/

/-- A string that the shell takes as it is. -/
def NulFree (s : String) : Prop := Char.ofNat 0 ∉ s.toList

instance (s : String) : Decidable (NulFree s) := inferInstanceAs (Decidable (Char.ofNat 0 ∉ s.toList))

/-- A word that is written without quotes. -/
def plainWord (s : String) : String × Token := (s, s.toList.map fun c => (c, false))

/-- A quoted string, and how the shell reads it. -/
def quotedWord (s : String) : String × Token := (shellQuote s, s.toList.map fun c => (c, !isSafe s))

theorem isPlain_of_isSafeChar {c : Char} (h : isSafeChar c = true) : isPlain c = true := by
  by_contra hnot
  rw [Bool.not_eq_true] at hnot
  unfold isPlain isBlank isSpecial at hnot
  simp only [Bool.and_eq_false_iff, Bool.not_eq_false', Bool.or_eq_true, beq_iff_eq, List.contains_eq_mem,
    decide_eq_true_eq, List.mem_cons, List.not_mem_nil, or_false, or_assoc] at hnot
  rcases hnot with rfl | rfl | rfl | rfl | rfl | rfl | rfl | rfl | rfl | rfl | rfl | rfl | rfl | rfl | rfl | rfl |
    rfl | rfl | rfl | rfl | rfl <;> exact absurd h (by decide)

theorem removeQuotes_map (s : String) (quoted : Bool) :
    removeQuotes (s.toList.map fun c => (c, quoted)) = s := by
  rw [removeQuotes, List.map_map]
  show String.ofList (s.toList.map id) = s
  rw [List.map_id, String.ofList_toList]

theorem removeQuotes_plainWord (s : String) : removeQuotes (plainWord s).2 = s := removeQuotes_map s false

theorem removeQuotes_quotedWord (s : String) : removeQuotes (quotedWord s).2 = s := removeQuotes_map s _

theorem isSafe_iff {s : String} : isSafe s = true ↔ s.toList ≠ [] ∧ ∀ c ∈ s.toList, isSafeChar c = true := by
  rw [isSafe, Bool.and_eq_true, List.all_eq_true, Bool.not_eq_true', ← Bool.not_eq_true, String.isEmpty_iff,
    ← String.toList_eq_nil_iff]

theorem toList_escapeQuotes (s : String) : (escapeQuotes s).toList = quoteBody s.toList := String.toList_ofList

theorem toList_shellQuote (s : String) :
    (shellQuote s).toList = if isSafe s then s.toList else '\'' :: (quoteBody s.toList ++ ['\'']) := by
  rw [shellQuote]
  split
  · rfl
  · rw [String.toList_append, String.toList_append, toList_escapeQuotes]
    rfl

/-- **A quoted string** is one word, which stands for it. -/
theorem quotedWord_reads (s : String) : Reads (quotedWord s).1.toList (quotedWord s).2 := by
  show Reads (shellQuote s).toList (s.toList.map fun c => (c, !isSafe s))
  by_cases hs : isSafe s = true
  · obtain ⟨hne, hsafe⟩ := isSafe_iff.mp hs
    rw [toList_shellQuote, if_pos hs, hs]
    exact reads_plain hne fun c hc => isPlain_of_isSafeChar (hsafe c hc)
  · rw [toList_shellQuote, if_neg hs, Bool.eq_false_iff.mpr hs]
    exact reads_quoted s.toList

theorem quotedWord_expands (s : String) : expands (quotedWord s).2 = false := by
  show expands (s.toList.map fun c => (c, !isSafe s)) = false
  by_cases hs : isSafe s = true
  · rw [hs]
    exact expands_of_plain fun c hc => isPlain_of_isSafeChar ((isSafe_iff.mp hs).2 c hc)
  · rw [Bool.eq_false_iff.mpr hs]
    exact expands_quoted s.toList

theorem quotedWord_nulFree {s : String} (h : NulFree s) : NulFree (quotedWord s).1 := by
  show Char.ofNat 0 ∉ (shellQuote s).toList
  rw [toList_shellQuote]
  split
  · exact h
  · intro hin
    rcases List.mem_cons.mp hin with hin | hin
    · exact absurd hin (by decide)
    · rcases List.mem_append.mp hin with hin | hin
      · obtain ⟨c, hc, hin⟩ := List.mem_flatMap.mp hin
        split at hin
        · exact absurd hin (by decide)
        · rw [← List.mem_singleton.mp hin] at hc
          exact h hc
      · exact absurd hin (by decide)

/-! ## The argument vector -/

/-- The words of an optional flag. -/
def flagWords (flag : String) (value : Option String) : List (String × Token) :=
  value.elim [] fun value => [plainWord flag, quotedWord value]

def retryWords (url tab : String) (endpoint profile : Option String) : List (String × Token) :=
  [plainWord "afhttp", plainWord "fetch", quotedWord url, plainWord "--takeover", plainWord "--tab",
    quotedWord tab] ++ flagWords "--endpoint-url" endpoint ++ flagWords "--profile" profile

/-- A flag behind what is already there. -/
theorem joined_flag {texts : List String} (hne : texts ≠ []) (flag : String) (value : Option String) :
    " ".intercalate (texts ++ (flagWords flag value).map Prod.fst) =
      value.elim (" ".intercalate texts) fun value =>
        " ".intercalate texts ++ (" " ++ flag ++ " ") ++ shellQuote value := by
  cases value with
  | none => exact congrArg _ (List.append_nil _)
  | some value =>
    show " ".intercalate (texts ++ [flag, shellQuote value]) = _
    rw [String.intercalate_append_of_ne_nil hne (List.cons_ne_nil _ _), String.intercalate_cons_cons,
      String.intercalate_singleton]
    exact String.append_assoc.symm.trans (congrArg (· ++ _) (by simp only [String.append_assoc]))

theorem joined_base (url tab : String) :
    " ".intercalate ["afhttp", "fetch", url, "--takeover", "--tab", tab] =
      "afhttp fetch " ++ url ++ " --takeover --tab " ++ tab := by
  calc " ".intercalate ["afhttp", "fetch", url, "--takeover", "--tab", tab]
    _ = "afhttp" ++ " " ++ "fetch" ++ " " ++ url ++ (" " ++ "--takeover" ++ " " ++ "--tab" ++ " ") ++ tab := by
      simp only [String.intercalate_cons_cons, String.intercalate_singleton, String.append_assoc]
    _ = _ := by simp

theorem retryCommand_eq (url tab : String) (endpoint profile : Option String) :
    retryCommand url tab endpoint profile =
      " ".intercalate ((retryWords url tab endpoint profile).map Prod.fst) := by
  have hne : ["afhttp", "fetch", shellQuote url, "--takeover", "--tab", shellQuote tab] ≠ [] :=
    List.cons_ne_nil _ _
  have hne' : ["afhttp", "fetch", shellQuote url, "--takeover", "--tab", shellQuote tab] ++
      (flagWords "--endpoint-url" endpoint).map Prod.fst ≠ [] := List.cons_ne_nil _ _
  have hwords : (retryWords url tab endpoint profile).map Prod.fst =
      ["afhttp", "fetch", shellQuote url, "--takeover", "--tab", shellQuote tab] ++
        (flagWords "--endpoint-url" endpoint).map Prod.fst ++ (flagWords "--profile" profile).map Prod.fst := by
    rw [retryWords, List.map_append, List.map_append]
    rfl
  rw [hwords, joined_flag hne', joined_flag hne]
  unfold retryCommand
  simp only [joined_base]
  cases endpoint <;> cases profile <;> simp

/-- The arguments of an optional flag. -/
def flagArgs (flag : String) (value : Option String) : List String := value.elim [] fun value => [flag, value]

/-- A word of the command: literal text that needs no quotes, or a quoted string. -/
inductive CommandWord : String × Token → Prop where
  | literal {s : String} (h : isSafe s = true) : CommandWord (plainWord s)
  | quoted (s : String) (h : NulFree s) : CommandWord (quotedWord s)

theorem CommandWord.spec {w : String × Token} (h : CommandWord w) :
    Reads w.1.toList w.2 ∧ NulFree w.1 ∧ expands w.2 = false := by
  cases h with
  | @literal s hs =>
    obtain ⟨hne, hsafe⟩ := isSafe_iff.mp hs
    have hplain : ∀ c ∈ s.toList, isPlain c = true := fun c hc => isPlain_of_isSafeChar (hsafe c hc)
    exact ⟨reads_plain hne hplain, fun hin => (plainFacts (hplain _ hin)).nul rfl, expands_of_plain hplain⟩
  | quoted s hs => exact ⟨quotedWord_reads s, quotedWord_nulFree hs, quotedWord_expands s⟩

theorem flagWords_spec {flag : String} {value : Option String} (hflag : isSafe flag = true)
    (hvalue : ∀ v ∈ value, NulFree v) : ∀ w ∈ flagWords flag value, CommandWord w := by
  intro w hw
  cases value with
  | none => cases hw
  | some v =>
    rcases List.mem_cons.mp hw with rfl | hw
    · exact .literal hflag
    · rw [List.mem_singleton.mp hw]
      exact .quoted v (hvalue v rfl)

theorem retryWords_spec {url tab : String} {endpoint profile : Option String} (hurl : NulFree url)
    (htab : NulFree tab) (hendpoint : ∀ v ∈ endpoint, NulFree v) (hprofile : ∀ v ∈ profile, NulFree v) :
    ∀ w ∈ retryWords url tab endpoint profile, CommandWord w := by
  have hliteral : isSafe "afhttp" = true ∧ isSafe "fetch" = true ∧ isSafe "--takeover" = true ∧
      isSafe "--tab" = true ∧ isSafe "--endpoint-url" = true ∧ isSafe "--profile" = true := by decide +kernel
  obtain ⟨h₁, h₂, h₃, h₄, h₅, h₆⟩ := hliteral
  intro w hw
  rcases List.mem_append.mp hw with hw | hw
  · rcases List.mem_append.mp hw with hw | hw
    · simp only [List.mem_cons, List.not_mem_nil, or_false] at hw
      rcases hw with rfl | rfl | rfl | rfl | rfl | rfl
      · exact .literal h₁
      · exact .literal h₂
      · exact .quoted url hurl
      · exact .literal h₃
      · exact .literal h₄
      · exact .quoted tab htab
    · exact flagWords_spec h₅ hendpoint w hw
  · exact flagWords_spec h₆ hprofile w hw

/-- The first word names the command. -/
theorem retryWords_command {words : List (String × Token)}
    (h : ∀ w ∈ plainWord "afhttp" :: words, CommandWord w) :
    isPlainCommand ((plainWord "afhttp" :: words).map Prod.snd) = true := by
  have hfirst : (isReserved (plainWord "afhttp").2 || isAssignment (plainWord "afhttp").2) = false := by
    decide +kernel
  have hexpands : ((plainWord "afhttp" :: words).map Prod.snd).any expands = false := by
    rw [List.any_eq_false]
    intro token htoken
    obtain ⟨w, hw, rfl⟩ := List.mem_map.mp htoken
    rw [(h w hw).spec.2.2]
    exact Bool.false_ne_true
  rw [isPlainCommand, hexpands, List.map_cons, List.head?_cons, Option.any_some, hfirst]
  rfl

theorem retryWords_strings (url tab : String) (endpoint profile : Option String) :
    ((retryWords url tab endpoint profile).map fun w => removeQuotes w.2) =
      ["afhttp", "fetch", url, "--takeover", "--tab", tab] ++ flagArgs "--endpoint-url" endpoint ++
        flagArgs "--profile" profile := by
  have hflag : ∀ flag value, ((flagWords flag value).map fun w => removeQuotes w.2) = flagArgs flag value := by
    intro flag value
    cases value with
    | none => rfl
    | some v =>
      show [removeQuotes (plainWord flag).2, removeQuotes (quotedWord v).2] = [flag, v]
      rw [removeQuotes_plainWord, removeQuotes_quotedWord]
  rw [retryWords, List.map_append, List.map_append, hflag, hflag]
  simp only [List.map_cons, List.map_nil, removeQuotes_plainWord, removeQuotes_quotedWord]

/-- **The recommended command** is read by the shell as the intended argument vector, whatever the four
strings are. -/
theorem prepareTakeoverRetry_argv {r : TakeoverResult} {next : NextAction} {tab : String}
    {endpoint profile : Option String} (hnext : r.nextAction = some next) (htab : r.tabId = some tab)
    (hurl : NulFree r.requestUrl) (htabNul : NulFree tab) (hendpoint : ∀ v ∈ endpoint, NulFree v)
    (hprofile : ∀ v ∈ profile, NulFree v) :
    ((r.prepareTakeoverRetry endpoint profile).nextAction.bind fun next => argv next.recommendedCommand) =
      some (["afhttp", "fetch", r.requestUrl, "--takeover", "--tab", tab] ++
        flagArgs "--endpoint-url" endpoint ++ flagArgs "--profile" profile) := by
  have hspec := retryWords_spec hurl htabNul hendpoint hprofile
  have hargv := argv_joined (List.cons_ne_nil _ _) (fun w hw => (hspec w hw).spec.1)
    (fun w hw => (hspec w hw).spec.2.1) (retryWords_command hspec)
  have hprepared : (r.prepareTakeoverRetry endpoint profile).nextAction =
      some { next with recommendedCommand := retryCommand r.requestUrl tab endpoint profile } := by
    rw [TakeoverResult.prepareTakeoverRetry, hnext, htab]
  rw [hprepared, Option.bind_some]
  show argv (retryCommand r.requestUrl tab endpoint profile) = _
  rw [retryCommand_eq]
  exact hargv.trans (congrArg some (retryWords_strings _ _ _ _))

/-- A URL with a quote and a command, and a profile with a substitution. -/
def hostileResult : TakeoverResult where
  requestUrl := "https://a.test/?q='; rm -rf ~ #"
  tabId := some "T-1"
  nextAction := some (.humanTakeover "https://a.test/?q='; rm -rf ~ #")

theorem prepareTakeoverRetry_argv_hostile :
    (NulFree hostileResult.requestUrl ∧ NulFree "T-1" ∧ NulFree "$(id)") ∧
      ((hostileResult.prepareTakeoverRetry none (some "$(id)")).nextAction.bind fun next =>
        argv next.recommendedCommand) =
          some (["afhttp", "fetch", hostileResult.requestUrl, "--takeover", "--tab", "T-1"] ++
            flagArgs "--endpoint-url" none ++ flagArgs "--profile" (some "$(id)")) := by
  have hnul : NulFree hostileResult.requestUrl ∧ NulFree "T-1" ∧ NulFree "$(id)" := by decide +kernel
  have hendpoint : ∀ v ∈ (none : Option String), NulFree v := fun v hv => by cases hv
  have hprofile : ∀ v ∈ some "$(id)", NulFree v := fun v hv => by
    cases hv
    exact hnul.2.2
  exact ⟨hnul, prepareTakeoverRetry_argv rfl rfl hnul.1 hnul.2.1 hendpoint hprofile⟩

/-- The command before there is a tab. -/
theorem humanTakeover_argv {url : String} (hurl : NulFree url) :
    argv (NextAction.humanTakeover url).recommendedCommand = some ["afhttp", "fetch", url, "--takeover"] := by
  have hliteral : isSafe "afhttp" = true ∧ isSafe "fetch" = true ∧ isSafe "--takeover" = true := by decide +kernel
  have hspec : ∀ w ∈ [plainWord "afhttp", plainWord "fetch", quotedWord url, plainWord "--takeover"],
      CommandWord w := by
    intro w hw
    simp only [List.mem_cons, List.not_mem_nil, or_false] at hw
    rcases hw with rfl | rfl | rfl | rfl
    · exact .literal hliteral.1
    · exact .literal hliteral.2.1
    · exact .quoted url hurl
    · exact .literal hliteral.2.2
  have hargv := argv_joined (List.cons_ne_nil _ _) (fun w hw => (hspec w hw).spec.1)
    (fun w hw => (hspec w hw).spec.2.1) (retryWords_command hspec)
  have hcommand : (NextAction.humanTakeover url).recommendedCommand =
      " ".intercalate ["afhttp", "fetch", shellQuote url, "--takeover"] := by
    calc "afhttp fetch " ++ shellQuote url ++ " --takeover"
      _ = "afhttp" ++ " " ++ "fetch" ++ " " ++ shellQuote url ++ (" " ++ "--takeover") := by simp
      _ = _ := by simp only [String.intercalate_cons_cons, String.intercalate_singleton, String.append_assoc]
  rw [hcommand]
  refine hargv.trans (congrArg some ?_)
  simp only [List.map_cons, List.map_nil, removeQuotes_plainWord, removeQuotes_quotedWord]

end Afhttp.Fetch
