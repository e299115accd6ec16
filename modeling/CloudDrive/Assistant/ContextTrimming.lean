import CloudDrive.Assistant.Planner

/-! # Trimmed contexts

What `ContextManager.trim` keeps of a message list, what it keeps when the list has grown,
and what the planner therefore sends. -/

namespace CloudDrive

/-- `sum(len(m.content) for m in messages)`. -/
def totalChars (messages : List LLMMessage) : Nat :=
  (messages.map fun message => message.content.length).sum

def systemMessages (messages : List LLMMessage) : List LLMMessage :=
  messages.filter fun message => decide (message.role = .system)

def nonSystem (messages : List LLMMessage) : List LLMMessage :=
  messages.filter fun message => decide (message.role ≠ .system)

@[simp] theorem totalChars_nil : totalChars [] = 0 := rfl

@[simp] theorem totalChars_cons (message : LLMMessage) (rest : List LLMMessage) :
    totalChars (message :: rest) = message.content.length + totalChars rest := by
  rw [totalChars, List.map_cons, List.sum_cons, totalChars]

@[simp] theorem totalChars_append (first second : List LLMMessage) :
    totalChars (first ++ second) = totalChars first + totalChars second := by
  rw [totalChars, List.map_append, List.sum_append, totalChars, totalChars]

@[simp] theorem totalChars_reverse (messages : List LLMMessage) :
    totalChars messages.reverse = totalChars messages := by
  rw [totalChars, List.map_reverse, List.sum_reverse, totalChars]

/-! ## The loop over the newest messages -/

section Newest

variable {limit : Nat}

@[simp] theorem trimNewest_nil (selected : Bool) (used : Nat) :
    trimNewest limit selected used [] = [] := by
  cases selected <;> rfl

/-- The loop breaks at the next message or takes it. -/
theorem trimNewest_cons (limit : Nat) (selected : Bool) (used : Nat) (message : LLMMessage)
    (rest : List LLMMessage) :
    (selected = true ∧ limit < used + message.content.length) ∧
        trimNewest limit selected used (message :: rest) = [] ∨
      (selected = true → used + message.content.length ≤ limit) ∧
        trimNewest limit selected used (message :: rest) =
          message :: trimNewest limit true (used + message.content.length) rest := by
  rw [trimNewest]
  by_cases breaks : selected = true ∧ limit < used + message.content.length
  · rw [if_pos breaks]
    exact .inl ⟨breaks, rfl⟩
  · rw [if_neg breaks]
    refine .inr ⟨?_, rfl⟩
    intro isSelected
    exact Nat.not_lt.mp fun exceeds => breaks ⟨isSelected, exceeds⟩

theorem trimNewest_takes {selected : Bool} {used : Nat} {message : LLMMessage}
    {rest : List LLMMessage}
    (fits : selected = true → used + message.content.length ≤ limit) :
    trimNewest limit selected used (message :: rest) =
      message :: trimNewest limit true (used + message.content.length) rest := by
  rw [trimNewest, if_neg]
  rintro ⟨isSelected, exceeds⟩
  exact Nat.not_lt.mpr (fits isSelected) exceeds

/-- The loop takes the newest messages, and breaks at one that exceeds the limit. -/
theorem trimNewest_split (limit : Nat) : ∀ (selected : Bool) (used : Nat)
    (newest : List LLMMessage), ∃ older,
      newest = trimNewest limit selected used newest ++ older ∧
      ∀ message rest, older = message :: rest →
        limit < used + totalChars (trimNewest limit selected used newest) +
          message.content.length
  | selected, used, [] => by
      rw [trimNewest_nil]
      refine ⟨[], rfl, ?_⟩
      intro message rest isCons
      cases isCons
  | selected, used, message :: rest => by
      rcases trimNewest_cons limit selected used message rest with
        ⟨⟨_, exceeds⟩, breaks⟩ | ⟨_, takes⟩
      · rw [breaks]
        refine ⟨message :: rest, rfl, ?_⟩
        intro first others isCons
        cases isCons
        rwa [totalChars_nil, Nat.add_zero]
      · rw [takes]
        rcases trimNewest_split limit true (used + message.content.length) rest with
          ⟨older, split, exceeds⟩
        refine ⟨older, by rw [List.cons_append, ← split], ?_⟩
        intro first others isCons
        rw [totalChars_cons, ← Nat.add_assoc]
        exact exceeds first others isCons

/-- After the first message the loop takes only what fits. -/
theorem trimNewest_fits (limit : Nat) : ∀ (used : Nat) (newest : List LLMMessage),
    trimNewest limit true used newest = [] ∨
      used + totalChars (trimNewest limit true used newest) ≤ limit
  | used, [] => .inl (trimNewest_nil true used)
  | used, message :: rest => by
      rcases trimNewest_cons limit true used message rest with
        ⟨_, breaks⟩ | ⟨fits, takes⟩
      · exact .inl breaks
      · rw [takes, totalChars_cons, ← Nat.add_assoc]
        rcases trimNewest_fits limit (used + message.content.length) rest with nothing | within
        · rw [nothing]
          exact .inr (fits rfl)
        · exact .inr within

/-- What the loop takes is within the limit, or it is one message or none. -/
theorem trimNewest_within (used : Nat) (newest : List LLMMessage) :
    used + totalChars (trimNewest limit false used newest) ≤ limit ∨
      (trimNewest limit false used newest).length ≤ 1 := by
  cases newest with
  | nil =>
      rw [trimNewest_nil]
      exact .inr (Nat.zero_le 1)
  | cons message rest =>
      rw [trimNewest_takes (by simp), totalChars_cons, ← Nat.add_assoc]
      rcases trimNewest_fits limit (used + message.content.length) rest with nothing | within
      · rw [nothing]
        exact .inr (Nat.le_refl 1)
      · exact .inl within

theorem trimNewest_idem : ∀ (selected : Bool) (used : Nat) (newest : List LLMMessage),
    trimNewest limit selected used (trimNewest limit selected used newest) =
      trimNewest limit selected used newest
  | selected, used, [] => by rw [trimNewest_nil, trimNewest_nil]
  | selected, used, message :: rest => by
      rcases trimNewest_cons limit selected used message rest with
        ⟨_, breaks⟩ | ⟨fits, takes⟩
      · rw [breaks, trimNewest_nil]
      · rw [takes, trimNewest_takes fits, trimNewest_idem]

/-- With more used before, the loop takes no more. -/
theorem trimNewest_shrinks : ∀ {selected later : Bool} {used more : Nat}
    (newest : List LLMMessage), (selected = true → later = true) → used ≤ more →
    trimNewest limit later more newest <+: trimNewest limit selected used newest
  | _, _, _, _, [], _, _ => by rw [trimNewest_nil, trimNewest_nil]
  | selected, later, used, more, message :: rest, stays, grows => by
      rcases trimNewest_cons limit later more message rest with
        ⟨_, breaks⟩ | ⟨fits, takes⟩
      · rw [breaks]
        exact List.nil_prefix
      · have grown : used + message.content.length ≤ more + message.content.length :=
          Nat.add_le_add_right grows message.content.length
        have fitsBefore : selected = true → used + message.content.length ≤ limit :=
          fun isSelected => grown.trans (fits (stays isSelected))
        rw [takes, trimNewest_takes fitsBefore, List.prefix_cons_inj]
        exact trimNewest_shrinks rest id grown

/-- Newer messages do not bring back one that the loop left out before. -/
theorem trimNewest_append : ∀ {selected : Bool} {used : Nat} (newer newest : List LLMMessage),
    trimNewest limit selected used (newer ++ newest) <+:
      newer ++ trimNewest limit selected used newest
  | _, _, [], _ => List.prefix_refl _
  | selected, used, message :: newer, newest => by
      rw [List.cons_append, List.cons_append]
      rcases trimNewest_cons limit selected used message (newer ++ newest) with
        ⟨_, breaks⟩ | ⟨_, takes⟩
      · rw [breaks]
        exact List.nil_prefix
      · have inRest : trimNewest limit true (used + message.content.length) (newer ++ newest) <+:
            newer ++ trimNewest limit true (used + message.content.length) newest :=
          trimNewest_append newer newest
        have smaller : trimNewest limit true (used + message.content.length) newest <+:
            trimNewest limit selected used newest :=
          trimNewest_shrinks newest (fun _ => rfl) (Nat.le_add_right _ _)
        rw [takes, List.prefix_cons_inj]
        exact inRest.trans ((List.prefix_append_right_inj newer).mpr smaller)

end Newest

/-! ## The trimmed list -/

/-- The messages that are not of the system and stay. -/
def keptMessages (numCtx : Int) (messages : List LLMMessage) : List LLMMessage :=
  (trimNewest (ContextManager.maxChars numCtx) false (totalChars (systemMessages messages))
    (nonSystem messages).reverse).reverse

theorem trimMessages_eq (numCtx : Int) (messages : List LLMMessage) :
    trimMessages numCtx messages = systemMessages messages ++ keptMessages numCtx messages := rfl

theorem nonSystem_append (first second : List LLMMessage) :
    nonSystem (first ++ second) = nonSystem first ++ nonSystem second :=
  List.filter_append first second

theorem systemMessages_append (first second : List LLMMessage) :
    systemMessages (first ++ second) = systemMessages first ++ systemMessages second :=
  List.filter_append first second

/-- What stays is what no older message can be added to. -/
theorem keptMessages_split (numCtx : Int) (messages : List LLMMessage) :
    ∃ dropped, nonSystem messages = dropped ++ keptMessages numCtx messages ∧
      ∀ older message, dropped = older ++ [message] →
        ContextManager.maxChars numCtx <
          totalChars (systemMessages messages ++ message :: keptMessages numCtx messages) := by
  rcases trimNewest_split (ContextManager.maxChars numCtx) false
    (totalChars (systemMessages messages)) (nonSystem messages).reverse with
    ⟨older, split, exceeds⟩
  refine ⟨older.reverse, ?_, ?_⟩
  · rw [keptMessages, ← List.reverse_append, ← split, List.reverse_reverse]
  · intro before message isLast
    have isFirst : older = message :: before.reverse := by
      rw [← List.reverse_reverse older, isLast, List.reverse_append, List.reverse_singleton,
        List.singleton_append]
    have beyond := exceeds message before.reverse isFirst
    rw [keptMessages, totalChars_append, totalChars_cons, totalChars_reverse]
    omega

theorem keptMessages_suffix (numCtx : Int) (messages : List LLMMessage) :
    keptMessages numCtx messages <:+ nonSystem messages := by
  rcases keptMessages_split numCtx messages with ⟨dropped, split, _⟩
  exact ⟨dropped, split.symm⟩

/-- The latest message stays, whatever its length. -/
theorem keptMessages_latest (numCtx : Int) (messages : List LLMMessage) :
    (keptMessages numCtx messages).getLast? = (nonSystem messages).getLast? := by
  rw [keptMessages, List.getLast?_reverse, List.getLast?_eq_head?_reverse]
  cases (nonSystem messages).reverse with
  | nil => rw [trimNewest_nil]
  | cons message rest => rw [trimNewest_takes (by simp), List.head?_cons, List.head?_cons]

theorem keptMessages_within (numCtx : Int) (messages : List LLMMessage) :
    totalChars (trimMessages numCtx messages) ≤ ContextManager.maxChars numCtx ∨
      (keptMessages numCtx messages).length ≤ 1 := by
  rw [trimMessages_eq, totalChars_append, keptMessages, totalChars_reverse, List.length_reverse]
  exact trimNewest_within _ _

theorem systemMessages_trim (numCtx : Int) (messages : List LLMMessage) :
    systemMessages (trimMessages numCtx messages) = systemMessages messages := by
  have noSystem : systemMessages (keptMessages numCtx messages) = [] := by
    apply List.filter_eq_nil_iff.mpr
    intro message member isSystem
    have among := (keptMessages_suffix numCtx messages).subset member
    exact of_decide_eq_true (List.mem_filter.mp among).2 (of_decide_eq_true isSystem)
  have stays : systemMessages (systemMessages messages) = systemMessages messages :=
    List.filter_eq_self.mpr fun message member => (List.mem_filter.mp member).2
  rw [trimMessages_eq, systemMessages_append, noSystem, List.append_nil, stays]

theorem nonSystem_trim (numCtx : Int) (messages : List LLMMessage) :
    nonSystem (trimMessages numCtx messages) = keptMessages numCtx messages := by
  have noOther : nonSystem (systemMessages messages) = [] := by
    apply List.filter_eq_nil_iff.mpr
    intro message member isOther
    exact of_decide_eq_true isOther (of_decide_eq_true (List.mem_filter.mp member).2)
  have stays : nonSystem (keptMessages numCtx messages) = keptMessages numCtx messages := by
    apply List.filter_eq_self.mpr
    intro message member
    exact (List.mem_filter.mp ((keptMessages_suffix numCtx messages).subset member)).2
  rw [trimMessages_eq, nonSystem_append, noOther, List.nil_append, stays]

theorem trimMessages_idem (numCtx : Int) (messages : List LLMMessage) :
    trimMessages numCtx (trimMessages numCtx messages) = trimMessages numCtx messages := by
  rw [trimMessages_eq numCtx (trimMessages numCtx messages), systemMessages_trim, keptMessages,
    systemMessages_trim, nonSystem_trim, keptMessages, List.reverse_reverse, trimNewest_idem,
    trimMessages_eq, keptMessages]

/-- Of an earlier history only messages stay that its own trim keeps. -/
theorem keptMessages_append (numCtx : Int) (messages appended : List LLMMessage) :
    keptMessages numCtx (messages ++ appended) <:+
      keptMessages numCtx messages ++ nonSystem appended := by
  rw [keptMessages, keptMessages, ← List.reverse_prefix, List.reverse_reverse,
    List.reverse_append, List.reverse_reverse, nonSystem_append, List.reverse_append]
  have grows : totalChars (systemMessages messages) ≤
      totalChars (systemMessages (messages ++ appended)) := by
    rw [systemMessages_append, totalChars_append]
    exact Nat.le_add_right _ _
  have smaller : trimNewest (ContextManager.maxChars numCtx) false
      (totalChars (systemMessages (messages ++ appended))) (nonSystem messages).reverse <+:
      trimNewest (ContextManager.maxChars numCtx) false (totalChars (systemMessages messages))
        (nonSystem messages).reverse := trimNewest_shrinks _ id grows
  exact (trimNewest_append _ _).trans ((List.prefix_append_right_inj _).mpr smaller)

/-- The system messages stay, before the longest suffix of the others that fits or the latest
of them; trimming again changes nothing, and a longer history keeps no message that was
dropped. -/
theorem trimMessages_keeps (numCtx : Int) (messages : List LLMMessage) :
    ∃ dropped kept, nonSystem messages = dropped ++ kept ∧
      trimMessages numCtx messages = systemMessages messages ++ kept ∧
      kept.getLast? = (nonSystem messages).getLast? ∧
      (totalChars (trimMessages numCtx messages) ≤ ContextManager.maxChars numCtx ∨
        kept.length ≤ 1) ∧
      (∀ older message, dropped = older ++ [message] →
        ContextManager.maxChars numCtx < totalChars (systemMessages messages ++ message :: kept)) ∧
      trimMessages numCtx (trimMessages numCtx messages) = trimMessages numCtx messages ∧
      ∀ appended, ∃ alsoDropped stillKept,
        nonSystem (messages ++ appended) = dropped ++ alsoDropped ++ stillKept ∧
          trimMessages numCtx (messages ++ appended) =
            systemMessages (messages ++ appended) ++ stillKept := by
  rcases keptMessages_split numCtx messages with ⟨dropped, split, maximal⟩
  refine ⟨dropped, keptMessages numCtx messages, split, trimMessages_eq numCtx messages,
    keptMessages_latest numCtx messages, keptMessages_within numCtx messages, maximal,
    trimMessages_idem numCtx messages, ?_⟩
  intro appended
  rcases keptMessages_append numCtx messages appended with ⟨alsoDropped, later⟩
  refine ⟨alsoDropped, keptMessages numCtx (messages ++ appended), ?_,
    trimMessages_eq numCtx (messages ++ appended)⟩
  rw [nonSystem_append, split, List.append_assoc, List.append_assoc, later]

theorem trimMessages_system (numCtx : Int) (text : String) :
    trimMessages numCtx [⟨.system, text⟩] = [⟨.system, text⟩] := by
  have others : nonSystem [⟨.system, text⟩] = [] := rfl
  have system : systemMessages [⟨.system, text⟩] = [⟨.system, text⟩] := rfl
  rw [trimMessages_eq, keptMessages, others, List.reverse_nil, trimNewest_nil, List.reverse_nil,
    List.append_nil, system]

/-- A system message longer than the context, and no other message. -/
private def longSystem : LLMMessage where
  role := .system
  content := String.ofList (List.replicate 1025 'a')

/-- The system messages stay even where they exceed the limit alone. -/
theorem trimMessages_systemOnly :
    ContextManager.maxChars 256 < totalChars (trimMessages 256 [longSystem]) ∧
      ∀ dropped kept, nonSystem [longSystem] = dropped ++ kept →
        trimMessages 256 [longSystem] = systemMessages [longSystem] ++ kept →
        kept.length ≠ 1 := by
  have long : longSystem.content.length = 1025 := by
    rw [longSystem, String.length_ofList, List.length_replicate]
  constructor
  · rw [longSystem, trimMessages_system, ← longSystem, totalChars_cons, long, totalChars_nil]
    decide
  · intro dropped kept _ trimmed single
    have lengths := congrArg List.length trimmed
    rw [longSystem, trimMessages_system, List.length_append, single] at lengths
    cases lengths

/-! ## What the planner sends -/

namespace WorkflowPlanner

variable [PythonText] [UnicodeDigits] [PlanText] {ω : Type}

/-- A user's request or a repair instruction. -/
def Asks (request : String) (message : LLMMessage) : Prop :=
  message = ⟨.user, request⟩ ∨ ∃ problems, message = ⟨.user, repairMessage problems⟩

omit [PythonText] [UnicodeDigits] [PlanText] in
theorem getLast?_trimMessages (numCtx : Int) (before : List LLMMessage) {last : LLMMessage}
    (isUser : last.role = .user) :
    (trimMessages numCtx (before ++ [last])).getLast? = some last := by
  have others : nonSystem (before ++ [last]) = nonSystem before ++ [last] := by
    rw [nonSystem_append, nonSystem, nonSystem, List.filter_singleton, isUser]
    rfl
  have latest := keptMessages_latest numCtx (before ++ [last])
  rw [others, List.getLast?_concat] at latest
  rw [trimMessages_eq, List.getLast?_append, latest, Option.some_or]

/-- Every call of the model ends with the request or with a repair instruction, and is the
trimmed list of what the round began with and what was appended since. -/
theorem rounds_sends (planner : WorkflowPlanner ω) (preceding : List PlannedStep)
    (request : String) : ∀ {remaining : Nat} {before : List LLMMessage} {last : LLMMessage}
      {lastReply : String}, Asks request last →
      ∀ sent ∈ (planner.rounds preceding remaining (before ++ [last]) lastReply).calls,
        ∃ appended latest, Asks request latest ∧ sent.getLast? = some latest ∧
          sent = trimMessages planner.numCtx (before ++ [last] ++ appended)
  | 0, _, _, _, _, sent, member => by cases member
  | remaining + 1, before, last, lastReply, asks, sent, member => by
      have isUser : last.role = .user := by
        rcases asks with rfl | ⟨problems, rfl⟩ <;> rfl
      have first : ∃ appended latest, Asks request latest ∧
          (trimMessages planner.numCtx (before ++ [last])).getLast? = some latest ∧
          trimMessages planner.numCtx (before ++ [last]) =
            trimMessages planner.numCtx (before ++ [last] ++ appended) := by
        refine ⟨[], last, asks, getLast?_trimMessages _ _ isUser, ?_⟩
        rw [List.append_nil]
      rw [rounds] at member
      dsimp only at member
      split at member
      · rw [List.mem_singleton.mp member]
        exact first
      · split at member
        · rw [List.mem_singleton.mp member]
          exact first
        · rw [List.mem_singleton.mp member]
          exact first
        · split at member
          · rw [List.mem_singleton.mp member]
            exact first
          · rw [List.mem_singleton.mp member]
            exact first
          · rename_i content _ _ _ _ _ problems _ _
            rcases List.mem_cons.mp member with rfl | later
            · exact first
            · have longer : before ++ [last] ++ [⟨.assistant, content⟩,
                  ⟨.user, repairMessage problems⟩] =
                  (before ++ [last] ++ [⟨.assistant, content⟩]) ++
                    [⟨.user, repairMessage problems⟩] :=
                (List.append_assoc (before ++ [last]) [_] [_]).symm
              rw [longer] at later
              rcases rounds_sends planner preceding request (.inr ⟨problems, rfl⟩) sent later with
                ⟨appended, latest, asksLatest, isLast, isTrimmed⟩
              refine ⟨[⟨.assistant, content⟩, ⟨.user, repairMessage problems⟩] ++ appended,
                latest, asksLatest, isLast, ?_⟩
              rw [isTrimmed, ← longer, List.append_assoc _ [_, _]]

/-- No call of the model loses what it is asked. -/
theorem plan_sends (planner : WorkflowPlanner ω) (message : String) (selected : List Arguments)
    (history : List LLMMessage) (preceding : List PlannedStep) :
    ∀ sent ∈ (planner.plan message selected history preceding).calls,
      ∃ latest, Asks message latest ∧ sent.getLast? = some latest := by
  intro sent member
  rcases planner.rounds_sends preceding message (.inl rfl) sent member with
    ⟨_, latest, asks, isLast, _⟩
  exact ⟨latest, asks, isLast⟩

end WorkflowPlanner

end CloudDrive
