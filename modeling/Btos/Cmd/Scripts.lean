import Btos.Lib.Loop
import Btos.Util.Strings

/-!
# Scripts

`scripting.cpp`: a script is a list of lines, and `ScriptScope::Run` goes through them with an
index. A block that is not taken is skipped by a function `resume`, which tells for each line
whether to go on there and counts nested blocks; the starts of running loops are on a stack; and
`ignoreLine` keeps the line that ends a skip from being taken for something else.

What a line does is a parameter: `runLine` gives its result and the state afterwards, or `none` if
it does not come to an end. `trace` notes the conditions that were evaluated and the commands that
were run.
-/

open Option

namespace Cmd

/-- The words of a line. -/
abbrev Line := List Str

/-! ## Words -/

/-- `to_lower`. -/
def toLower (s : Str) : Str := s.map Char.toLower

/-- `trimchar`. -/
def trimchar (s : Str) (c : Char) : Str :=
  ((s.reverse.dropWhile (· == c)).reverse).dropWhile (· == c)

/-- `trim`. -/
def trim (s : Str) : Str := trimchar (trimchar s '\n') ' '

/-- `IsTruthy`. -/
def isTruthy (q : Str) : Bool :=
  let ql := trim (toLower q)
  !(ql == [] || ql == "false".toList || ql == "no".toList || ql == "0".toList)

/-- The words that start lines which are not commands. -/
inductive Keyword where
  | labelWord
  | functionWord
  | loopWord
  | endWord
  | gotoWord
  | ifWord
  | elseWord
  deriving DecidableEq, Repr

/-- How a keyword is written. -/
def Keyword.text : Keyword → Str
  | .labelWord => "label".toList
  | .functionWord => "function".toList
  | .loopWord => "loop".toList
  | .endWord => "end".toList
  | .gotoWord => "goto".toList
  | .ifWord => "if".toList
  | .elseWord => "else".toList

@[simp]
lemma Keyword.text_inj {k k' : Keyword} : k.text = k'.text ↔ k = k' := by
  cases k <;> cases k' <;> decide

/-- `IsStart`. -/
def isStart (block : Keyword) : Line → Bool
  | [] => false
  | word :: _ => toLower word == block.text

/-- `IsEnd`. -/
def isEnd (block : Keyword) : Line → Bool
  | [first, second] => toLower first == Keyword.endWord.text && toLower second == block.text
  | _ => false

/-- `IsExact`. -/
def isExact (block : Keyword) : Line → Bool
  | [word] => toLower word == block.text
  | _ => false

/-! ## Scopes -/

/-- `ScriptFunction`. -/
structure ScriptFunction where
  content : List Line
  params : List Str
  deriving DecidableEq, Repr

/-- What `Parse` fills in of a `ScriptScope`. The first entry of a name counts. -/
structure ScriptScope where
  lines : List Line
  functions : List (Str × ScriptFunction)
  labels : List (Str × ℕ)
  deriving DecidableEq, Repr

/-- `ParseFunctionDef` and `ParseFunctionCall`: the name, and the words behind it. -/
def parseFunction (line : Line) : Str × List Str :=
  match line with
  | _ :: name :: rest => (toLower name, rest)
  | _ => ([], [])

/-- The variables of `Parse`. -/
structure ParseState where
  scope : ScriptScope
  pending : Option (Str × List Str)
  fnLines : List Line

/-- A round of the loop of `Parse`. -/
def parseLine (s : ParseState) (p : Line) : ParseState :=
  match p with
  | [] => s
  | word :: rest =>
      let key := toLower word
      if word.head? = some '#' then s
      else match s.pending with
        | none =>
            if key = Keyword.functionWord.text then
              let fn := parseFunction p
              if fn.1 ≠ [] then { s with pending := some fn } else s
            else if key = Keyword.labelWord.text then
              match rest with
              | [] => s
              | name :: _ =>
                  { s with scope.labels :=
                      s.scope.labels ++ [(toLower name, s.scope.lines.length)] }
            else { s with scope.lines := s.scope.lines ++ [p] }
        | some (name, params) =>
            -- everything up to END FUNCTION belongs to the function, other definitions included
            if isEnd .functionWord p then
              { scope := { s.scope with
                  functions := s.scope.functions ++ [(name, ⟨s.fnLines, params⟩)] }
                pending := none
                fnLines := [] }
            else { s with fnLines := s.fnLines ++ [p] }

/-- `Parse`. -/
def parse (clines : List Line) : ScriptScope :=
  (clines.foldl parseLine ⟨⟨[], [], []⟩, none, []⟩).scope

/-! ## Run -/

/-- The functions that `resume` may be. -/
inductive Resume where
  /-- The condition of an IF does not hold. -/
  | ifFalse
  /-- The first branch of an IF has ended. -/
  | elseSkip
  /-- The condition of a LOOP does not hold. -/
  | loopSkip
  deriving DecidableEq, Repr

/-- The blocks that `resume` counts. -/
def Resume.block : Resume → Keyword
  | .ifFalse | .elseSkip => .ifWord
  | .loopSkip => .loopWord

/-- What happens outside of `Run`. -/
inductive Event where
  | condition (line : Line)
  | command (line : Line)
  deriving DecidableEq, Repr

/-- The variables of `Run`, and the state `env` that lines change. -/
structure RunState (σ : Type) where
  i : ℕ
  resume : Option Resume
  resumeCounter : ℤ
  ignoreLine : Bool
  loopStack : List ℕ
  output : Str
  trace : List Event
  env : σ

namespace RunState

variable {σ : Type} (s : RunState σ)

/-- The end of a round, after a line was looked at. -/
def next : RunState σ := { s with i := s.i + 1, ignoreLine := false }

/-- The lines up to the end of a block are skipped. -/
def skip (mode : Resume) : RunState σ := { s with resume := some mode, resumeCounter := 1 }

/-- A call of `resume`: whether to go on with this line. -/
def callResume (mode : Resume) (line : Line) : Bool × RunState σ :=
  if mode = .ifFalse ∧ s.resumeCounter = 1 ∧ isExact .elseWord line then
    -- the ELSE of this IF is not one that ends a branch
    (true, { s with ignoreLine := true })
  else
    let counter :=
      if isStart mode.block line then s.resumeCounter + 1
      else if isEnd mode.block line then s.resumeCounter - 1
      else s.resumeCounter
    let s := { s with resumeCounter := counter }
    if counter ≠ 0 then (false, s)
    -- an END LOOP that ends a skip must not take from the stack
    else (true, if mode = .loopSkip then { s with ignoreLine := true } else s)

end RunState

section Run

variable {σ : Type} (runLine : σ → Line → Option (Str × σ))
  (interpolate : σ → Str → Option (Str × σ)) (scope : ScriptScope)

/-- The condition of an IF or of a LOOP. -/
def evalCondition (s : RunState σ) (rest : Line) : Option (Bool × RunState σ) :=
  (runLine s.env rest).map fun (result, env) =>
    (isTruthy result, { s with env := env, trace := s.trace ++ [.condition rest] })

/-- The words behind a GOTO. -/
def processGoto (s : RunState σ) : Line → Option (RunState σ)
  | [label] => (interpolate s.env (toLower label)).map fun (label, env) =>
      let s := { s with env := env }
      match scope.labels.lookup label with
      | some target =>
          -- `i = labels.at(label) - 1`, and `++i` at the end of the round
          if target < scope.lines.length then { s.next with i := target } else s.next
      | none => s.next
  | _ => some s.next

/-- The words behind an END. -/
def processEnd (s : RunState σ) : Line → Option (RunState σ)
  | [block] =>
      if toLower block = Keyword.functionWord.text then
        -- `break`
        some { s with i := scope.lines.length }
      else if toLower block = Keyword.loopWord.text then
        if s.ignoreLine then some s.next
        else match s.loopStack with
          | [] => none
          -- `i = loopStack.top() - 1`, and `++i` at the end of the round
          | top :: stack => some { s.next with i := top, loopStack := stack }
      else some s.next
  | _ => some s.next

/-- A line that is not skipped. -/
def processLine (s : RunState σ) (line : Line) : Option (RunState σ) :=
  match line with
  | [] => some { s with i := s.i + 1 }
  | word :: rest =>
      let key := toLower word
      if key = Keyword.gotoWord.text then processGoto interpolate scope s rest
      else if key = Keyword.ifWord.text then
        (evalCondition runLine s rest).map fun (holds, s) =>
          if holds then s.next else (s.skip .ifFalse).next
      else if key = Keyword.elseWord.text then
        some (if s.ignoreLine then s.next else (s.skip .elseSkip).next)
      else if key = Keyword.loopWord.text then
        (evalCondition runLine s rest).map fun (holds, s) =>
          if holds then { s.next with loopStack := s.i :: s.loopStack }
          else (s.skip .loopSkip).next
      else if key = Keyword.endWord.text then processEnd scope s rest
      else
        (runLine s.env line).map fun (result, env) =>
          RunState.next
            { s with
              env := env
              output := s.output ++ (result ++ ['\n'])
              trace := s.trace ++ [.command line] }

/-- A round of the loop of `Run`. -/
def runRound (s : RunState σ) : Option (RunState σ) :=
  match scope.lines[s.i]? with
  | none => none
  | some line =>
      match s.resume with
      | none => processLine runLine interpolate scope s line
      | some mode =>
          let (goOn, s) := s.callResume mode line
          if goOn then processLine runLine interpolate scope { s with resume := none } line
          else some { s with i := s.i + 1 }

/-- `Run`, in at most `rounds` rounds. -/
def run (rounds : ℕ) (env : σ) : Option (RunState σ) :=
  Loop.whileDo (fun s => some (decide (s.i < scope.lines.length)))
    (runRound runLine interpolate scope) rounds ⟨0, none, 0, false, [], [], [], env⟩

/-! ## What a round does to the state of lines -/

/-- Lines change `env`, and so does the label of a GOTO, but nothing else. -/
def Touches (env env' : σ) : Prop :=
  env' = env ∨ (∃ line result, runLine env line = some (result, env')) ∨
    ∃ word result, interpolate env word = some (result, env')

variable {runLine interpolate scope} {s s' : RunState σ}

lemma RunState.env_callResume (mode : Resume) (line : Line) :
    (s.callResume mode line).2.env = s.env := by
  unfold RunState.callResume
  dsimp only
  split_ifs <;> rfl

lemma processGoto_touches {rest : Line} (h : processGoto interpolate scope s rest = some s') :
    Touches runLine interpolate s.env s'.env := by
  unfold processGoto at h
  split at h
  · rename_i label
    obtain ⟨⟨target, env⟩, hlabel, rfl⟩ := map_eq_some_iff.mp h
    refine .inr (.inr ⟨toLower label, target, ?_⟩)
    rw [hlabel]
    dsimp only
    split
    · split_ifs <;> rfl
    · rfl
  · cases h
    exact .inl rfl

lemma processEnd_touches {rest : Line} (h : processEnd scope s rest = some s') :
    Touches runLine interpolate s.env s'.env := by
  refine .inl ?_
  unfold processEnd at h
  split at h
  · split_ifs at h
    · cases h
      rfl
    · cases h
      rfl
    · split at h
      · cases h
      · cases h
        rfl
    · cases h
      rfl
  · cases h
    rfl

lemma evalCondition_touches {rest : Line} {result : Bool × RunState σ}
    (h : evalCondition runLine s rest = some result) :
    Touches runLine interpolate s.env result.2.env := by
  obtain ⟨⟨text, env⟩, hrun, rfl⟩ := map_eq_some_iff.mp h
  exact .inr (.inl ⟨rest, text, hrun⟩)

theorem processLine_touches {line : Line}
    (h : processLine runLine interpolate scope s line = some s') :
    Touches runLine interpolate s.env s'.env := by
  unfold processLine at h
  split at h
  · cases h
    exact .inl rfl
  · dsimp only at h
    split_ifs at h
    · exact processGoto_touches h
    · obtain ⟨⟨holds, s1⟩, hcond, rfl⟩ := map_eq_some_iff.mp h
      cases holds <;> exact evalCondition_touches hcond
    · cases h
      exact .inl rfl
    · cases h
      exact .inl rfl
    · obtain ⟨⟨holds, s1⟩, hcond, rfl⟩ := map_eq_some_iff.mp h
      cases holds <;> exact evalCondition_touches hcond
    · exact processEnd_touches h
    · obtain ⟨⟨result, env⟩, hrun, rfl⟩ := map_eq_some_iff.mp h
      exact .inr (.inl ⟨_, result, hrun⟩)

theorem runRound_touches (h : runRound runLine interpolate scope s = some s') :
    Touches runLine interpolate s.env s'.env := by
  unfold runRound at h
  split at h
  · cases h
  · split at h
    · exact processLine_touches h
    · rename_i line _ _ mode _
      have henv := s.env_callResume mode line
      dsimp only at h
      split_ifs at h
      · have htouches := processLine_touches h
        simpa only [henv] using htouches
      · cases h
        exact .inl henv

end Run

end Cmd
