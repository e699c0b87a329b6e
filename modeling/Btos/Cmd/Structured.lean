import Btos.Cmd.Scripts

/-!
# Structured scripts

`Program` is what a structured script looks like, commands and blocks that are properly nested, and
`Executes` is what it means. `run_of_executes` says that `Run`, which goes through the lines of the
script with an index, does the same.

* `Skips`: the lines of a program are skipped as a whole (`skips_lines`).
* `Runs`: they are run as a whole (`runs_of_executes`).
-/

open List

namespace Cmd

/-! ## Structured programs -/

/-- A line that `Run` takes for a command. -/
def isCommand : Line → Bool
  | [] => false
  | word :: _ => [Keyword.gotoWord, .ifWord, .elseWord, .loopWord, .endWord].all
      fun k => toLower word != k.text

/-- Commands. -/
abbrev Command := {l : Line // isCommand l}

/-- Lines that start a block of a kind. -/
abbrev Start (block : Keyword) := {l : Line // isStart block l}

/-- Lines that end one. -/
abbrev Close (block : Keyword) := {l : Line // isEnd block l}

/-- Lines between the branches of an IF. -/
abbrev Middle := {l : Line // isExact .elseWord l}

/-- Commands, and blocks of them that are properly nested. -/
inductive Program where
  | nil
  | command (line : Command) (rest : Program)
  /-- IF ... END IF -/
  | ifEnd (start : Start .ifWord) (body : Program)
      (close : Close .ifWord) (rest : Program)
  /-- IF ... ELSE ... END IF -/
  | ifElse (start : Start .ifWord) (body : Program)
      (middle : Middle) (other : Program)
      (close : Close .ifWord) (rest : Program)
  /-- LOOP ... END LOOP -/
  | loop (start : Start .loopWord) (body : Program)
      (close : Close .loopWord) (rest : Program)

/-- How a program is written. -/
def Program.lines : Program → List Line
  | nil => []
  | command line rest => line.1 :: rest.lines
  | ifEnd start body close rest => start.1 :: (body.lines ++ close.1 :: rest.lines)
  | ifElse start body middle other close rest =>
      start.1 :: (body.lines ++ middle.1 :: (other.lines ++ close.1 :: rest.lines))
  | loop start body close rest => start.1 :: (body.lines ++ close.1 :: rest.lines)

section Meaning

variable {σ : Type} (runLine : σ → Line → Option (Str × σ))

/-- A condition is evaluated, and holds or does not. -/
def Evaluates (env : σ) (cond : Line) (holds : Bool) (env' : σ) : Prop :=
  ∃ result, runLine env cond = some (result, env') ∧ isTruthy result = holds

/-- `Executes p env trace output env'`: `p` comes to an end, with these events, this output and this
state. -/
inductive Executes : Program → σ → List Event → Str → σ → Prop
  | nil {env : σ} : Executes .nil env [] [] env
  | command {line : Command} {rest : Program} {env env₁ env₂ : σ} {result : Str}
      {trace : List Event} {output : Str} :
      runLine env line.1 = some (result, env₁) → Executes rest env₁ trace output env₂ →
      Executes (.command line rest) env (.command line.1 :: trace) (result ++ '\n' :: output) env₂
  | ifHolds {start : Start .ifWord} {body : Program}
      {close : Close .ifWord} {rest : Program} {env env₁ env₂ env₃ : σ}
      {trace trace' : List Event} {output output' : Str} :
      Evaluates runLine env start.1.tail true env₁ → Executes body env₁ trace output env₂ →
      Executes rest env₂ trace' output' env₃ →
      Executes (.ifEnd start body close rest) env (.condition start.1.tail :: (trace ++ trace'))
        (output ++ output') env₃
  | ifFails {start : Start .ifWord} {body : Program}
      {close : Close .ifWord} {rest : Program} {env env₁ env₂ : σ}
      {trace : List Event} {output : Str} :
      Evaluates runLine env start.1.tail false env₁ → Executes rest env₁ trace output env₂ →
      Executes (.ifEnd start body close rest) env (.condition start.1.tail :: trace) output env₂
  | ifElseHolds {start : Start .ifWord} {body : Program}
      {middle : Middle} {other : Program}
      {close : Close .ifWord} {rest : Program} {env env₁ env₂ env₃ : σ}
      {trace trace' : List Event} {output output' : Str} :
      Evaluates runLine env start.1.tail true env₁ → Executes body env₁ trace output env₂ →
      Executes rest env₂ trace' output' env₃ →
      Executes (.ifElse start body middle other close rest) env
        (.condition start.1.tail :: (trace ++ trace')) (output ++ output') env₃
  | ifElseFails {start : Start .ifWord} {body : Program}
      {middle : Middle} {other : Program}
      {close : Close .ifWord} {rest : Program} {env env₁ env₂ env₃ : σ}
      {trace trace' : List Event} {output output' : Str} :
      Evaluates runLine env start.1.tail false env₁ → Executes other env₁ trace output env₂ →
      Executes rest env₂ trace' output' env₃ →
      Executes (.ifElse start body middle other close rest) env
        (.condition start.1.tail :: (trace ++ trace')) (output ++ output') env₃
  | loopHolds {start : Start .loopWord} {body : Program}
      {close : Close .loopWord} {rest : Program} {env env₁ env₂ env₃ : σ}
      {trace trace' : List Event} {output output' : Str} :
      Evaluates runLine env start.1.tail true env₁ → Executes body env₁ trace output env₂ →
      Executes (.loop start body close rest) env₂ trace' output' env₃ →
      Executes (.loop start body close rest) env (.condition start.1.tail :: (trace ++ trace'))
        (output ++ output') env₃
  | loopFails {start : Start .loopWord} {body : Program}
      {close : Close .loopWord} {rest : Program} {env env₁ env₂ : σ}
      {trace : List Event} {output : Str} :
      Evaluates runLine env start.1.tail false env₁ → Executes rest env₁ trace output env₂ →
      Executes (.loop start body close rest) env (.condition start.1.tail :: trace) output env₂

end Meaning

/-! ## What kinds of lines are -/

variable {k : Keyword}

lemma exists_of_isStart {l : Line} (h : isStart k l) :
    ∃ word tail, l = word :: tail ∧ toLower word = k.text := by
  cases l with
  | nil => simp [isStart] at h
  | cons word tail => exact ⟨word, tail, rfl, by simpa [isStart] using h⟩

lemma exists_of_isEnd {l : Line} (h : isEnd k l) :
    ∃ first second, l = [first, second] ∧ toLower first = Keyword.endWord.text ∧
      toLower second = k.text := by
  unfold isEnd at h
  split at h
  · rename_i first second
    simp only [Bool.and_eq_true, beq_iff_eq] at h
    exact ⟨first, second, rfl, h⟩
  · simp at h

lemma exists_of_isExact {l : Line} (h : isExact k l) :
    ∃ word, l = [word] ∧ toLower word = k.text := by
  unfold isExact at h
  split at h
  · rename_i word
    exact ⟨word, rfl, by simpa using h⟩
  · simp at h

lemma exists_of_isCommand {l : Line} (h : isCommand l) :
    ∃ word rest, l = word :: rest ∧ toLower word ≠ Keyword.gotoWord.text ∧
      toLower word ≠ Keyword.ifWord.text ∧ toLower word ≠ Keyword.elseWord.text ∧
      toLower word ≠ Keyword.loopWord.text ∧ toLower word ≠ Keyword.endWord.text := by
  cases l with
  | nil => simp [isCommand] at h
  | cons word rest => exact ⟨word, rest, rfl, by simpa [isCommand] using h⟩

lemma isEnd_cons_of_ne {word : Str} {rest : Line}
    (h : toLower word ≠ Keyword.endWord.text) : isEnd k (word :: rest) = false := by
  unfold isEnd
  split
  · rename_i heq
    obtain ⟨rfl, -⟩ := cons.inj heq
    simp [h]
  · rfl

/-- By how much a line changes the count of blocks. -/
def Resume.weight (mode : Resume) (l : Line) : ℤ :=
  if isStart mode.block l then 1 else if isEnd mode.block l then -1 else 0

lemma Resume.block_cases (mode : Resume) : mode.block = .ifWord ∨ mode.block = .loopWord := by
  cases mode <;> simp [block]

section Weights

variable {mode : Resume} {l : Line}

lemma weight_of_isStart (h : isStart k l) (hk : k ≠ .endWord) :
    mode.weight l = if k = mode.block then 1 else 0 := by
  obtain ⟨word, tail, rfl, hword⟩ := exists_of_isStart h
  rw [Resume.weight, isEnd_cons_of_ne (by simpa [hword] using hk)]
  simp [isStart, hword]

lemma weight_of_isEnd (h : isEnd k l) : mode.weight l = if k = mode.block then -1 else 0 := by
  obtain ⟨first, second, rfl, hfirst, hsecond⟩ := exists_of_isEnd h
  rcases mode.block_cases with hmode | hmode <;>
    simp [Resume.weight, isStart, isEnd, hfirst, hsecond, hmode]

lemma weight_of_isExact (h : isExact .elseWord l) : mode.weight l = 0 := by
  obtain ⟨word, rfl, hword⟩ := exists_of_isExact h
  rcases mode.block_cases with hmode | hmode <;> simp [Resume.weight, isStart, isEnd, hword, hmode]

lemma weight_of_isCommand (h : isCommand l) : mode.weight l = 0 := by
  obtain ⟨word, rest, rfl, -, hif, -, hloop, hend⟩ := exists_of_isCommand h
  rw [Resume.weight, isEnd_cons_of_ne hend]
  rcases mode.block_cases with hmode | hmode <;> simp [isStart, hmode, hif, hloop]

lemma not_isExact_of_isStart (h : isStart k l) (hk : k ≠ .elseWord) : ¬isExact .elseWord l := by
  intro hexact
  obtain ⟨word, rfl, hword⟩ := exists_of_isExact hexact
  simp [isStart, hword, hk.symm] at h

lemma not_isExact_of_isEnd (h : isEnd k l) : ¬isExact .elseWord l := by
  obtain ⟨first, second, rfl, -⟩ := exists_of_isEnd h
  simp [isExact]

lemma not_isExact_of_isCommand (h : isCommand l) : ¬isExact .elseWord l := by
  intro hexact
  obtain ⟨word, rfl, hword⟩ := exists_of_isExact hexact
  simp [isCommand, hword] at h

end Weights

/-! ## Rounds -/

/-- A state in which the line `i` is the next to be run. -/
def running {σ : Type} (i : ℕ) (counter : ℤ) (loopStack : List ℕ) (output : Str)
    (trace : List Event) (env : σ) : RunState σ :=
  ⟨i, none, counter, false, loopStack, output, trace, env⟩

/-- A state in which lines are skipped from `i` on. -/
def skipping {σ : Type} (mode : Resume) (i : ℕ) (counter : ℤ) (loopStack : List ℕ) (output : Str)
    (trace : List Event) (env : σ) : RunState σ :=
  ⟨i, some mode, counter, false, loopStack, output, trace, env⟩

section Rounds

variable {σ : Type} (runLine : σ → Line → Option (Str × σ))
  (interpolate : σ → Str → Option (Str × σ)) (scope : ScriptScope)

/-- A round of `Run`. -/
def Step : RunState σ → RunState σ → Prop :=
  Loop.Round (fun s => some (decide (s.i < scope.lines.length)))
    (runRound runLine interpolate scope)

/-- Rounds of `Run`. -/
abbrev Steps : RunState σ → RunState σ → Prop :=
  Relation.ReflTransGen (Step runLine interpolate scope)

variable {runLine interpolate scope} {i : ℕ} {l : Line} {rest : List Line} {c : ℤ}
  {stack : List ℕ} {output : Str} {trace : List Event} {env env' : σ} {mode : Resume}

section

variable (hat : scope.lines.drop i = l :: rest)
include hat

lemma drop_succ_of_drop : scope.lines.drop (i + 1) = rest := by
  rw [← drop_drop, hat, drop_succ_cons, drop_zero]

lemma lt_and_line_of_drop : i < scope.lines.length ∧ scope.lines[i]? = some l := by
  have hline : scope.lines[i]? = some l := by
    rw [← head?_drop, hat, head?_cons]
  obtain ⟨hlt, -⟩ := List.getElem?_eq_some_iff.mp hline
  exact ⟨hlt, hline⟩

/-- A round in which a line is run. -/
lemma step_running {s' : RunState σ}
    (h : processLine runLine interpolate scope (running i c stack output trace env) l = some s') :
    Step runLine interpolate scope (running i c stack output trace env) s' := by
  obtain ⟨hlt, hline⟩ := lt_and_line_of_drop hat
  refine ⟨by simp [running, hlt], ?_⟩
  have hround : runRound runLine interpolate scope (running i c stack output trace env) =
      processLine runLine interpolate scope (running i c stack output trace env) l := by
    rw [runRound, show scope.lines[(running i c stack output trace env).i]? = some l from hline]
    rfl
  exact hround.trans h

end

lemma runRound_skipping (hline : scope.lines[i]? = some l) :
    runRound runLine interpolate scope (skipping mode i c stack output trace env) =
      let called := (skipping mode i c stack output trace env).callResume mode l
      if called.1 then processLine runLine interpolate scope { called.2 with resume := none } l
      else some { called.2 with i := called.2.i + 1 } := by
  have hline' : scope.lines[(skipping mode i c stack output trace env).i]? = some l := hline
  rw [runRound, hline']
  rfl

/-- What `resume` does with a line at which a first branch does not end. -/
lemma callResume_eq (s : RunState σ)
    (helse : ¬(mode = .ifFalse ∧ s.resumeCounter = 1 ∧ isExact .elseWord l)) :
    s.callResume mode l =
      let s1 := { s with resumeCounter := s.resumeCounter + mode.weight l }
      if s.resumeCounter + mode.weight l ≠ 0 then (false, s1)
      else (true, if mode = .loopSkip then { s1 with ignoreLine := true } else s1) := by
  have hcounter : (if isStart mode.block l then s.resumeCounter + 1
      else if isEnd mode.block l then s.resumeCounter - 1 else s.resumeCounter) =
      s.resumeCounter + mode.weight l := by
    unfold Resume.weight
    split_ifs <;> omega
  rw [RunState.callResume, if_neg helse, hcounter]

section

variable (hat : scope.lines.drop i = l :: rest)
include hat

/-- A line that is skipped. -/
lemma step_skip {c' : ℤ}
    (helse : ¬(mode = .ifFalse ∧ c = 1 ∧ isExact .elseWord l)) (hcount : c + mode.weight l = c')
    (hc' : c' ≠ 0) :
    Step runLine interpolate scope (skipping mode i c stack output trace env)
      (skipping mode (i + 1) c' stack output trace env) := by
  subst hcount
  obtain ⟨hlt, hline⟩ := lt_and_line_of_drop hat
  refine ⟨by simp [skipping, hlt], ?_⟩
  have hcall : (skipping mode i c stack output trace env).callResume mode l =
      (false, skipping mode i (c + mode.weight l) stack output trace env) := by
    rw [callResume_eq _ helse]
    exact if_pos hc'
  rw [runRound_skipping hline, hcall]
  rfl

/-- The END of the block that is skipped. -/
lemma step_skip_last (hclose : isEnd mode.block l) :
    Step runLine interpolate scope (skipping mode i 1 stack output trace env)
      (running (i + 1) 0 stack output trace env) := by
  obtain ⟨hlt, hline⟩ := lt_and_line_of_drop hat
  refine ⟨by simp [skipping, hlt], ?_⟩
  obtain ⟨first, second, rfl, hfirst, hsecond⟩ := exists_of_isEnd hclose
  -- the count drops to zero, and the line is run: an END IF does nothing, an END LOOP is ignored
  have hweight : mode.weight [first, second] = -1 := by
    rw [weight_of_isEnd hclose, if_pos rfl]
  rw [runRound_skipping hline, callResume_eq _ (by simp [isExact]), hweight]
  cases mode <;>
    simp [skipping, running, processLine, processEnd, hfirst, hsecond, Resume.block, RunState.next]

/-- The ELSE of the IF that is skipped. -/
lemma step_skip_middle (hmiddle : isExact .elseWord l) :
    Step runLine interpolate scope (skipping .ifFalse i 1 stack output trace env)
      (running (i + 1) 1 stack output trace env) := by
  obtain ⟨hlt, hline⟩ := lt_and_line_of_drop hat
  refine ⟨by simp [skipping, hlt], ?_⟩
  have hcall : (skipping .ifFalse i 1 stack output trace env).callResume .ifFalse l =
      (true, { skipping .ifFalse i 1 stack output trace env with ignoreLine := true }) :=
    if_pos ⟨rfl, rfl, hmiddle⟩
  obtain ⟨word, rfl, hword⟩ := exists_of_isExact hmiddle
  rw [runRound_skipping hline, hcall]
  simp [skipping, running, processLine, hword, RunState.next]

end

end Rounds

/-! ## Skipping a program -/

section Skips

variable {σ : Type} (runLine : σ → Line → Option (Str × σ))
  (interpolate : σ → Str → Option (Str × σ)) (scope : ScriptScope) (mode : Resume)
  (stack : List ℕ) (output : Str) (trace : List Event) (env : σ)

/-- `ls` is skipped as a whole, wherever it is, if the count is `b` or more. The count is what it
was. -/
def Skips (b : ℤ) (ls : List Line) : Prop :=
  ∀ i c post, b ≤ c → scope.lines.drop i = ls ++ post →
    ∃ j, Steps runLine interpolate scope (skipping mode i c stack output trace env)
      (skipping mode j c stack output trace env) ∧ scope.lines.drop j = post

variable {runLine interpolate scope mode stack output trace env}

namespace Skips

lemma mono {b b' : ℤ} {ls : List Line}
    (h : Skips runLine interpolate scope mode stack output trace env b ls) (hb : b ≤ b') :
    Skips runLine interpolate scope mode stack output trace env b' ls :=
  fun i c post hc hat => h i c post (hb.trans hc) hat

variable {b : ℤ}

lemma nil : Skips runLine interpolate scope mode stack output trace env b [] :=
  fun i _ _ _ hat => ⟨i, .refl, hat⟩

lemma append {ls ls' : List Line}
    (h : Skips runLine interpolate scope mode stack output trace env b ls)
    (h' : Skips runLine interpolate scope mode stack output trace env b ls') :
    Skips runLine interpolate scope mode stack output trace env b (ls ++ ls') := by
  intro i c post hc hat
  obtain ⟨j, hij, hj⟩ := h i c (ls' ++ post) hc (by rw [hat, append_assoc])
  obtain ⟨k, hjk, hk⟩ := h' j c post hc hj
  exact ⟨k, hij.trans hjk, hk⟩

lemma single {l : Line} (hweight : mode.weight l = 0)
    (helse : mode = .ifFalse → isExact .elseWord l → 2 ≤ b) (hb : 1 ≤ b) :
    Skips runLine interpolate scope mode stack output trace env b [l] := by
  intro i c post hc hat
  refine ⟨i + 1, .single (step_skip hat ?_ (by rw [hweight, add_zero]) (by omega)),
    drop_succ_of_drop hat⟩
  rintro ⟨hmode, rfl, hexact⟩
  have := helse hmode hexact
  omega

/-- A block: within it the count is larger if blocks of this kind are counted. -/
lemma block (start : Start k) (close : Close k) {ls : List Line}
    (hend : k ≠ .endWord) (helse : k ≠ .elseWord) (hb : 1 ≤ b)
    (h : Skips runLine interpolate scope mode stack output trace env
      (b + if k = mode.block then 1 else 0) ls) :
    Skips runLine interpolate scope mode stack output trace env b
      (start.1 :: (ls ++ [close.1])) := by
  intro i c post hc hat
  generalize hw : (if k = mode.block then (1 : ℤ) else 0) = w at h
  have hw0 : 0 ≤ w := by
    rw [← hw]
    split_ifs <;> omega
  have hstart : mode.weight start.1 = w := by rw [weight_of_isStart start.2 hend, hw]
  have hclose : mode.weight close.1 = -w := by
    rw [weight_of_isEnd close.2, ← hw]
    split_ifs <;> rfl
  have hat : scope.lines.drop i = start.1 :: (ls ++ close.1 :: post) := by simpa using hat
  -- the start adds `w` to the count, the end takes it away again, and in between it is positive
  obtain ⟨j, hsteps, hj⟩ := h (i + 1) (c + w) (close.1 :: post) (by omega) (drop_succ_of_drop hat)
  refine ⟨j + 1, .head ?_ (hsteps.tail ?_), drop_succ_of_drop hj⟩
  · refine step_skip hat (fun hand => ?_) (by rw [hstart]) (by omega)
    exact not_isExact_of_isStart start.2 helse hand.2.2
  · refine step_skip hj (fun hand => ?_) (by rw [hclose]; omega) (by omega)
    exact not_isExact_of_isEnd close.2 hand.2.2

end Skips

/-- A program within a block that is skipped is skipped as a whole, blocks in it included. -/
lemma skips_lines (p : Program) :
    Skips runLine interpolate scope mode stack output trace env 1 p.lines := by
  induction p with
  | nil => exact .nil
  | command line rest ih =>
    refine .append (.single (weight_of_isCommand line.2) (fun _ hexact => ?_) le_rfl) ih
    exact absurd hexact (not_isExact_of_isCommand line.2)
  | ifEnd start body close rest ihbody ihrest | loop start body close rest ihbody ihrest =>
    have hblock := Skips.block start close (by decide) (by decide) le_rfl
      (ihbody.mono (by split_ifs <;> omega))
    simpa [Program.lines] using hblock.append ihrest
  | ifElse start body middle other close rest ihbody ihother ihrest =>
    have hone : (1 : ℤ) ≤ 1 + if Keyword.ifWord = mode.block then 1 else 0 := by
      split_ifs <;> omega
    -- where an ELSE could end the skip, its IF is counted
    have hmiddle : Skips runLine interpolate scope mode stack output trace env
        (1 + if Keyword.ifWord = mode.block then 1 else 0) [middle.1] := by
      refine .single (weight_of_isExact middle.2) (fun hmode _ => ?_) hone
      simp [hmode, Resume.block]
    have hblock := Skips.block start close (by decide) (by decide) le_rfl
      ((ihbody.mono hone).append (hmiddle.append (ihother.mono hone)))
    simpa [Program.lines] using hblock.append ihrest

end Skips

/-! ## Running a program -/

section Running

variable {σ : Type} {runLine : σ → Line → Option (Str × σ)}
  {interpolate : σ → Str → Option (Str × σ)} {scope : ScriptScope} {i : ℕ} {l : Line}
  {rest : List Line} {c : ℤ} {stack : List ℕ} {output : Str} {trace : List Event} {env env' : σ}

lemma step_command {result : Str} (hat : scope.lines.drop i = l :: rest) (h : isCommand l)
    (hrun : runLine env l = some (result, env')) :
    Step runLine interpolate scope (running i c stack output trace env)
      (running (i + 1) c stack (output ++ (result ++ ['\n'])) (trace ++ [.command l]) env') := by
  refine step_running hat ?_
  obtain ⟨word, tail, rfl, hgoto, hif, helse, hloop, hend⟩ := exists_of_isCommand h
  simp [processLine, running, hgoto, hif, helse, hloop, hend, hrun, RunState.next]

variable {holds : Bool}

lemma evalCondition_running {cond : Line} (h : Evaluates runLine env cond holds env') :
    evalCondition runLine (running i c stack output trace env) cond =
      some (holds, running i c stack output (trace ++ [.condition cond]) env') := by
  obtain ⟨result, hrun, rfl⟩ := h
  simp [evalCondition, running, hrun]

/-- The line of an IF. -/
lemma processLine_if (h : isStart .ifWord l) (hcond : Evaluates runLine env l.tail holds env') :
    processLine runLine interpolate scope (running i c stack output trace env) l =
      some (if holds then running (i + 1) c stack output (trace ++ [.condition l.tail]) env'
        else skipping .ifFalse (i + 1) 1 stack output (trace ++ [.condition l.tail]) env') := by
  obtain ⟨word, tail, rfl, hword⟩ := exists_of_isStart h
  rw [tail_cons] at hcond
  rw [processLine]
  simp only [hword, Keyword.text_inj, reduceCtorEq, if_false, if_true,
    evalCondition_running hcond, Option.map_some]
  cases holds <;> rfl

/-- The line of a LOOP. -/
lemma processLine_loop (h : isStart .loopWord l) (hcond : Evaluates runLine env l.tail holds env') :
    processLine runLine interpolate scope (running i c stack output trace env) l =
      some (if holds then running (i + 1) c (i :: stack) output (trace ++ [.condition l.tail]) env'
        else skipping .loopSkip (i + 1) 1 stack output (trace ++ [.condition l.tail]) env') := by
  obtain ⟨word, tail, rfl, hword⟩ := exists_of_isStart h
  rw [tail_cons] at hcond
  rw [processLine]
  simp only [hword, Keyword.text_inj, reduceCtorEq, if_false, if_true,
    evalCondition_running hcond, Option.map_some]
  cases holds <;> rfl

section

variable (hat : scope.lines.drop i = l :: rest)
include hat

lemma step_else (h : isExact .elseWord l) :
    Step runLine interpolate scope (running i c stack output trace env)
      (skipping .elseSkip (i + 1) 1 stack output trace env) := by
  refine step_running hat ?_
  obtain ⟨word, rfl, hword⟩ := exists_of_isExact h
  simp [processLine, hword, running, skipping, RunState.skip, RunState.next]

lemma step_endIf (h : isEnd .ifWord l) :
    Step runLine interpolate scope (running i c stack output trace env)
      (running (i + 1) c stack output trace env) := by
  refine step_running hat ?_
  obtain ⟨first, second, rfl, hfirst, hsecond⟩ := exists_of_isEnd h
  simp [processLine, processEnd, hfirst, hsecond, running, RunState.next]

lemma step_endLoop {top : ℕ} (h : isEnd .loopWord l) :
    Step runLine interpolate scope (running i c (top :: stack) output trace env)
      (running top c stack output trace env) := by
  refine step_running hat ?_
  obtain ⟨first, second, rfl, hfirst, hsecond⟩ := exists_of_isEnd h
  simp [processLine, processEnd, hfirst, hsecond, running, RunState.next]

end

variable (runLine interpolate scope) in
/-- `ls` is run, wherever it is, with these events and this output. The stack is what it was. -/
def Runs (ls : List Line) (env : σ) (trace' : List Event) (output' : Str) (env' : σ) : Prop :=
  ∀ i c stack output trace post, scope.lines.drop i = ls ++ post →
    ∃ j c', Steps runLine interpolate scope (running i c stack output trace env)
      (running j c' stack (output ++ output') (trace ++ trace') env') ∧ scope.lines.drop j = post

namespace Runs

variable {ls ls' body other : List Line} {trace₁ trace₂ : List Event} {output₁ output₂ : Str}
  {env₁ env₂ : σ}

lemma nil : Runs runLine interpolate scope [] env [] [] env := by
  intro i c stack output trace post hat
  refine ⟨i, c, ?_, hat⟩
  rw [append_nil, append_nil]

lemma append (h : Runs runLine interpolate scope ls env trace₁ output₁ env₁)
    (h' : Runs runLine interpolate scope ls' env₁ trace₂ output₂ env₂) :
    Runs runLine interpolate scope (ls ++ ls') env (trace₁ ++ trace₂) (output₁ ++ output₂)
      env₂ := by
  intro i c stack output trace post hat
  obtain ⟨j, c1, hij, hj⟩ := h i c stack output trace (ls' ++ post) (by rw [hat, append_assoc])
  obtain ⟨k, c2, hjk, hk⟩ := h' j c1 stack (output ++ output₁) (trace ++ trace₁) post hj
  rw [append_assoc, append_assoc] at hjk
  exact ⟨k, c2, hij.trans hjk, hk⟩

lemma command {result : Str} (line : Command) (hrun : runLine env line.1 = some (result, env₁)) :
    Runs runLine interpolate scope [line.1] env [.command line.1] (result ++ ['\n']) env₁ := by
  intro i c stack output trace post hat
  exact ⟨i + 1, c, .single (step_command hat line.2 hrun), drop_succ_of_drop hat⟩

lemma ifHolds (start : Start .ifWord) (hcond : Evaluates runLine env start.1.tail true env₁)
    (h : Runs runLine interpolate scope body env₁ trace₁ output₁ env₂) :
    Runs runLine interpolate scope (start.1 :: body) env (.condition start.1.tail :: trace₁) output₁
      env₂ := by
  intro i c stack output trace post hat
  obtain ⟨j, c', hsteps, hj⟩ := h (i + 1) c stack output (trace ++ [.condition start.1.tail]) post
    (drop_succ_of_drop hat)
  rw [append_assoc] at hsteps
  exact ⟨j, c', .head (step_running hat (processLine_if start.2 hcond)) hsteps, hj⟩

lemma endIf (close : Close .ifWord) : Runs runLine interpolate scope [close.1] env [] [] env := by
  intro i c stack output trace post hat
  rw [append_nil, append_nil]
  exact ⟨i + 1, c, .single (step_endIf hat close.2), drop_succ_of_drop hat⟩

lemma elseSkip (middle : Middle) (p : Program) (close : Close .ifWord) :
    Runs runLine interpolate scope (middle.1 :: (p.lines ++ [close.1])) env [] [] env := by
  intro i c stack output trace post hat
  rw [append_nil, append_nil]
  obtain ⟨j, hskip, hj⟩ := skips_lines p (i + 1) 1 (close.1 :: post) le_rfl
    (by simpa using drop_succ_of_drop hat)
  exact ⟨j + 1, 0, .head (step_else hat middle.2) (hskip.tail (step_skip_last hj close.2)),
    drop_succ_of_drop hj⟩

lemma ifFails (start : Start .ifWord) (p : Program) (close : Close .ifWord)
    (hcond : Evaluates runLine env start.1.tail false env₁) :
    Runs runLine interpolate scope (start.1 :: (p.lines ++ [close.1])) env
      [.condition start.1.tail] [] env₁ := by
  intro i c stack output trace post hat
  rw [append_nil]
  obtain ⟨j, hskip, hj⟩ := skips_lines p (i + 1) 1 (close.1 :: post) le_rfl
    (by simpa using drop_succ_of_drop hat)
  exact ⟨j + 1, 0, .head (step_running hat (processLine_if start.2 hcond))
    (hskip.tail (step_skip_last hj close.2)), drop_succ_of_drop hj⟩

lemma ifElseFails (start : Start .ifWord) (p : Program) (middle : Middle)
    (hcond : Evaluates runLine env start.1.tail false env₁) :
    Runs runLine interpolate scope (start.1 :: (p.lines ++ [middle.1])) env
      [.condition start.1.tail] [] env₁ := by
  intro i c stack output trace post hat
  rw [append_nil]
  obtain ⟨j, hskip, hj⟩ := skips_lines p (i + 1) 1 (middle.1 :: post) le_rfl
    (by simpa using drop_succ_of_drop hat)
  exact ⟨j + 1, 1, .head (step_running hat (processLine_if start.2 hcond))
    (hskip.tail (step_skip_middle hj middle.2)), drop_succ_of_drop hj⟩

lemma loopFails (start : Start .loopWord) (p : Program) (close : Close .loopWord)
    (hcond : Evaluates runLine env start.1.tail false env₁) :
    Runs runLine interpolate scope (start.1 :: (p.lines ++ [close.1])) env
      [.condition start.1.tail] [] env₁ := by
  intro i c stack output trace post hat
  rw [append_nil]
  obtain ⟨j, hskip, hj⟩ := skips_lines p (i + 1) 1 (close.1 :: post) le_rfl
    (by simpa using drop_succ_of_drop hat)
  exact ⟨j + 1, 0, .head (step_running hat (processLine_loop start.2 hcond))
    (hskip.tail (step_skip_last hj close.2)), drop_succ_of_drop hj⟩

/-- A LOOP whose condition holds: the lines of its body, and then the LOOP again. -/
lemma loopHolds (start : Start .loopWord) (close : Close .loopWord)
    (hcond : Evaluates runLine env start.1.tail true env₁)
    (hbody : Runs runLine interpolate scope body env₁ trace₁ output₁ env₂)
    (h : Runs runLine interpolate scope (start.1 :: (body ++ close.1 :: ls)) env₂ trace₂ output₂
      env') :
    Runs runLine interpolate scope (start.1 :: (body ++ close.1 :: ls)) env
      (.condition start.1.tail :: (trace₁ ++ trace₂)) (output₁ ++ output₂) env' := by
  intro i c stack output trace post hat
  obtain ⟨j, c1, hij, hj⟩ := hbody (i + 1) c (i :: stack) output
    (trace ++ [.condition start.1.tail]) (close.1 :: (ls ++ post))
    (by simpa using drop_succ_of_drop hat)
  -- END LOOP takes the line of the LOOP from the stack, so the lines from `i` on are run again
  obtain ⟨k, c2, hagain, hk⟩ := h i c1 stack _ _ post hat
  have hsteps := (hij.tail (step_endLoop hj close.2)).trans hagain
  refine ⟨k, c2, .head (step_running hat (processLine_loop start.2 hcond)) ?_, hk⟩
  simpa using hsteps

end Runs

/-- A structured program that comes to an end is run as it is executed, wherever its lines are. The
induction is on the execution: a loop is executed again from the line where it starts. -/
lemma runs_of_executes {p : Program} {trace' : List Event} {output' : Str}
    (h : Executes runLine p env trace' output' env') :
    Runs runLine interpolate scope p.lines env trace' output' env' := by
  induction h with
  | nil => exact .nil
  | @command line _ _ _ _ _ _ _ hrun _ ih =>
    simpa [Program.lines] using (Runs.command line hrun).append ih
  | @ifHolds start _ close _ _ _ _ _ _ _ _ _ hcond _ _ ihbody ihrest =>
    simpa [Program.lines] using ((ihbody.append (.endIf close)).ifHolds start hcond).append ihrest
  | @ifFails start body close _ _ _ _ _ _ hcond _ ihrest =>
    simpa [Program.lines] using (Runs.ifFails start body close hcond).append ihrest
  | @ifElseHolds start _ middle other close _ _ _ _ _ _ _ _ _ hcond _ _ ihbody ihrest =>
    simpa [Program.lines] using
      ((ihbody.append (.elseSkip middle other close)).ifHolds start hcond).append ihrest
  | @ifElseFails start body middle _ close _ _ _ _ _ _ _ _ _ hcond _ _ ihother ihrest =>
    have hbranch := (Runs.ifElseFails start body middle hcond).append
      (ihother.append (.endIf close))
    simpa [Program.lines] using hbranch.append ihrest
  | @loopHolds start _ close _ _ _ _ _ _ _ _ _ hcond _ _ ihbody ihloop =>
    exact ihbody.loopHolds start close hcond ihloop
  | @loopFails start body close _ _ _ _ _ _ hcond _ ihrest =>
    simpa [Program.lines] using (Runs.loopFails start body close hcond).append ihrest

variable (interpolate) in
/-- `Run` evaluates the conditions and runs the commands of a structured script that comes to an end
as its meaning says, in the same order, and returns the same output. -/
theorem run_of_executes {p : Program} (hlines : scope.lines = p.lines)
    (h : Executes runLine p env trace output env') :
    ∃ n, ∀ rounds, n < rounds → ∃ s, run runLine interpolate scope rounds env = some s ∧
      s.trace = trace ∧ s.output = output ∧ s.env = env' := by
  -- all lines of the scope are those of the program, so that nothing is left behind them
  have hruns : Runs runLine interpolate scope p.lines env trace output env' := runs_of_executes h
  obtain ⟨j, c, hsteps, hj⟩ := hruns 0 0 [] [] [] [] (by simp [hlines])
  have hend : ¬j < scope.lines.length := by
    have := drop_eq_nil_iff.mp hj
    omega
  obtain ⟨n, hn⟩ := Loop.whileDo_of_rounds hsteps (by simp [running, hend])
  exact ⟨n, fun rounds hrounds => ⟨_, hn rounds hrounds, rfl, rfl, rfl⟩⟩

end Running

/-! ## A script that counts down -/

/-- A loop over an IF with two branches. -/
def countdown : Program :=
  .loop ⟨["LOOP".toList, "positive".toList], by decide⟩
    (.ifElse ⟨["IF".toList, "even".toList], by decide⟩
      (.command ⟨["show".toList, "even".toList], by decide⟩ .nil)
      ⟨["ELSE".toList], by decide⟩
      (.command ⟨["show".toList, "odd".toList], by decide⟩ .nil)
      ⟨["END".toList, "IF".toList], by decide⟩
      (.command ⟨["decrement".toList], by decide⟩ .nil))
    ⟨["END".toList, "LOOP".toList], by decide⟩ .nil

/-- What its lines do with a number. -/
def countLine (n : ℕ) (line : Line) : Option (Str × ℕ) :=
  if line = ["positive".toList] then some ((if 0 < n then "yes" else "no").toList, n)
  else if line = ["even".toList] then some ((if n % 2 = 0 then "yes" else "no").toList, n)
  else if line = ["decrement".toList] then some ([], n - 1)
  else some (line.tail.flatten, n)

/-- From two, both branches are taken once. -/
theorem run_countdown :
    ∃ n, ∀ rounds, n < rounds → ∃ s,
      run countLine (fun n label => some (label, n))
        (parse (["#comment".toList] :: countdown.lines)) rounds 2 = some s ∧
      s.trace = [.condition ["positive".toList], .condition ["even".toList],
        .command ["show".toList, "even".toList], .command ["decrement".toList],
        .condition ["positive".toList], .condition ["even".toList],
        .command ["show".toList, "odd".toList], .command ["decrement".toList],
        .condition ["positive".toList]] ∧ s.output = "even\n\nodd\n\n".toList ∧ s.env = 0 := by
  have hlines : (parse (["#comment".toList] :: countdown.lines)).lines = countdown.lines := by
    decide
  have h := run_of_executes (fun n label => some (label, n)) hlines
    (.loopHolds ⟨_, (rfl : countLine 2 ["positive".toList] = _), by decide⟩
      (.ifElseHolds ⟨_, (rfl : countLine 2 ["even".toList] = _), by decide⟩
        (.command (rfl : countLine 2 ["show".toList, "even".toList] = _) .nil)
        (.command (rfl : countLine 2 ["decrement".toList] = _) .nil))
      (.loopHolds ⟨_, (rfl : countLine 1 ["positive".toList] = _), by decide⟩
        (.ifElseFails ⟨_, (rfl : countLine 1 ["even".toList] = _), by decide⟩
          (.command (rfl : countLine 1 ["show".toList, "odd".toList] = _) .nil)
          (.command (rfl : countLine 1 ["decrement".toList] = _) .nil))
        (.loopFails ⟨_, (rfl : countLine 0 ["positive".toList] = _), by decide⟩ .nil)))
  exact h

end Cmd
