import QuicProxy.Data.Machine

namespace QuicProxy

/-! Two tasks that talk over a connection: each writes and reads in a fixed order,
and what one has written reaches the other in order, at any time and in any pieces. -/

/-- What a task still does with its end of the connection.  A read asks for so many
elements, and is told when the stream ends before them. -/
inductive Party (β ε α : Type) where
  | ret (result : Except ε α)
  | write (elements : List β) (next : Party β ε α)
  | read (count : Nat) (next : Option (List β) → Party β ε α)

namespace Party

variable {β ε α γ : Type}

def bind : Party β ε α → (α → Party β ε γ) → Party β ε γ
  | ret (.ok value), next => next value
  | ret (.error error), _ => ret (.error error)
  | write elements rest, next => write elements (rest.bind next)
  | read count rest, next => read count fun got => (rest got).bind next

instance : Monad (Party β ε) where
  pure value := ret (.ok value)
  bind := bind

def throw (error : ε) : Party β ε α := ret (.error error)

def writeAll (elements : List β) : Party β ε Unit := write elements (ret (.ok ()))

/-- `read_exact`, with the error of a stream that ends early. -/
def readExact (eof : ε) (count : Nat) : Party β ε (List β) :=
  read count fun got => ret (got.elim (.error eof) .ok)

def readElement (eof : ε) : Party β ε β :=
  read 1 fun got => ret ((got.bind List.head?).elim (.error eof) .ok)

/-- The result is dropped, be it an error. -/
def ignore : Party β ε α → Party β ε Unit
  | ret _ => ret (.ok ())
  | write elements rest => write elements rest.ignore
  | read count rest => read count fun got => (rest got).ignore

/-- A task that has failed drops its end of the connection. -/
def gone : Party β ε α → Bool
  | ret (.error _) => true
  | _ => false

/-- One element is moved, or a call that needs none returns: what the task goes on
with, what is left to read, and what it has written. -/
def move (peerGone : Bool) : Party β ε α → List β → Option (Party β ε α × List β × List β)
  | ret _, _ => none
  | write [] next, inbox => some (next, inbox, [])
  | write (element :: elements) next, inbox => some (write elements next, inbox, [element])
  | read 0 next, inbox => some (next (some []), inbox, [])
  | read (count + 1) next, element :: inbox =>
      some (read count fun got => next (got.map (element :: ·)), inbox, [])
  | read (_ + 1) next, [] => if peerGone then some (next none, [], []) else none

/-- What the task comes to when it is given so many elements and then the end: its
result, what it has written, and what it has left. -/
def hears : Party β ε α → List β → Except ε α × List β × List β
  | ret result, input => (result, [], input)
  | write elements next, input =>
      let after := next.hears input
      (after.1, elements ++ after.2.1, after.2.2)
  | read count next, input =>
      if input.length < count then (next none).hears []
      else (next (some (input.take count))).hears (input.drop count)

@[simp] theorem pure_bind (value : α) (next : α → Party β ε γ) :
    (pure value >>= next : Party β ε γ) = next value := rfl

@[simp] theorem throw_bind (error : ε) (next : α → Party β ε γ) :
    (throw error >>= next : Party β ε γ) = throw error := rfl

@[simp] theorem bind_assoc {δ : Type} (party : Party β ε α) (next : α → Party β ε γ)
    (last : γ → Party β ε δ) :
    (party >>= next >>= last : Party β ε δ) = party >>= fun value => next value >>= last := by
  show (party.bind next).bind last = party.bind fun value => (next value).bind last
  induction party with
  | ret result => cases result <;> rfl
  | write elements rest ih => exact congrArg (write elements) ih
  | read count rest ih => exact congrArg (read count) (funext ih)

/-- The task reads and writes the elements, with its peer free to do as it likes. -/
inductive Advances : Party β ε α → (input output : List β) → Party β ε α → Prop
  | stay (party : Party β ε α) : Advances party [] [] party
  | write (elements : List β) {next last : Party β ε α} {input output : List β}
      (rest : Advances next input output last) :
      Advances (write elements next) input (elements ++ output) last
  | read (elements : List β) {next : Option (List β) → Party β ε α} {last : Party β ε α}
      {input output : List β} (rest : Advances (next (some elements)) input output last) :
      Advances (read elements.length next) (elements ++ input) output last

theorem Advances.hears {party last : Party β ε α} {input output : List β}
    (advances : Advances party input output last) (more : List β) :
    party.hears (input ++ more) =
      ((last.hears more).1, output ++ (last.hears more).2.1, (last.hears more).2.2) := by
  induction advances with
  | stay party => rfl
  | write elements rest ih =>
      rw [Party.hears, ih]
      simp only [List.append_assoc]
  | read elements rest ih =>
      rw [Party.hears, List.append_assoc, List.take_left, List.drop_left,
        if_neg (by rw [List.length_append]; omega), ih]

theorem hears_bind (party : Party β ε α) (next : α → Party β ε γ) (input : List β) :
    (party >>= next).hears input =
      match (party.hears input).1 with
      | .ok value =>
          (((next value).hears (party.hears input).2.2).1,
            (party.hears input).2.1 ++ ((next value).hears (party.hears input).2.2).2.1,
            ((next value).hears (party.hears input).2.2).2.2)
      | .error error => (.error error, (party.hears input).2) := by
  show (party.bind next).hears input = _
  induction party generalizing input with
  | ret result => cases result <;> rfl
  | write elements rest ih =>
      rw [bind, Party.hears, ih]
      simp only [Party.hears]
      cases (rest.hears input).1 with
      | ok value => simp only [List.append_assoc]
      | error error => rfl
  | read count rest ih =>
      rw [bind, Party.hears]
      simp only [Party.hears]
      split
      · exact ih none []
      · exact ih _ _

/-- The value that the task comes to, with the input behind it. -/
def parses (party : Party β ε α) (input : List β) : Except ε (α × List β) :=
  (party.hears input).1.map fun value => (value, (party.hears input).2.2)

theorem parses_bind (party : Party β ε α) (next : α → Party β ε γ) (input : List β) :
    (party >>= next).parses input =
      party.parses input >>= fun given => (next given.1).parses given.2 := by
  rw [parses, parses, hears_bind]
  cases (party.hears input).1 <;> rfl

theorem parses_readExact (eof : ε) (count : Nat) (input : List β) :
    (Party.readExact eof count : Party β ε (List β)).parses input =
      if input.length < count then .error eof else .ok (input.take count, input.drop count) := by
  rw [parses, Party.readExact, hears]
  split <;> rfl

theorem parses_readElement (eof : ε) (input : List β) :
    (Party.readElement eof : Party β ε β).parses input =
      match input with
      | [] => .error eof
      | element :: rest => .ok (element, rest) := by
  rw [parses, Party.readElement, hears]
  cases input with
  | nil => rfl
  | cons element rest =>
      rw [if_neg (by rw [List.length_cons]; omega)]
      rfl

theorem parses_bind_ok {party : Party β ε α} {next : α → Party β ε γ} {input rest : List β}
    {value : γ} :
    (party >>= next).parses input = .ok (value, rest) ↔
      ∃ given behind, party.parses input = .ok (given, behind) ∧
        (next given).parses behind = .ok (value, rest) := by
  rw [parses_bind]
  rcases party.parses input with error | ⟨given, behind⟩
  · exact iff_of_false nofun nofun
  · exact ⟨fun done => ⟨given, behind, rfl, done⟩, by rintro ⟨_, _, ⟨⟩, done⟩; exact done⟩

theorem parses_pure_ok {value given : α} {input rest : List β} :
    (pure value : Party β ε α).parses input = .ok (given, rest) ↔ value = given ∧ input = rest := by
  rw [show (pure value : Party β ε α).parses input = .ok (value, input) from rfl, Except.ok.injEq,
    Prod.mk.injEq]

theorem parses_readExact_ok {eof : ε} {count : Nat} {input elements rest : List β} :
    (Party.readExact eof count : Party β ε (List β)).parses input = .ok (elements, rest) ↔
      input = elements ++ rest ∧ elements.length = count := by
  rw [parses_readExact]
  constructor
  · intro read
    split at read
    · cases read
    · rename_i long
      cases read
      exact ⟨(List.take_append_drop count input).symm,
        List.length_take_of_le (Nat.le_of_not_lt long)⟩
  · rintro ⟨rfl, rfl⟩
    rw [if_neg (by rw [List.length_append]; omega), List.take_left, List.drop_left]

theorem parses_readElement_ok {eof : ε} {input rest : List β} {element : β} :
    (Party.readElement eof : Party β ε β).parses input = .ok (element, rest) ↔
      input = element :: rest := by
  rw [parses_readElement]
  cases input with
  | nil => exact iff_of_false nofun nofun
  | cons first behind => exact ⟨by rintro ⟨⟩; rfl, by rintro ⟨⟩; rfl⟩

/-- The task writes nothing. -/
def Quiet (party : Party β ε α) : Prop := ∀ input, (party.hears input).2.1 = []

theorem quiet_ret (result : Except ε α) : (ret result : Party β ε α).Quiet := fun _ => rfl

theorem quiet_readExact (eof : ε) (count : Nat) :
    (Party.readExact eof count : Party β ε (List β)).Quiet := by
  intro input
  rw [Party.readExact, hears]
  split <;> rfl

theorem quiet_readElement (eof : ε) : (Party.readElement eof : Party β ε β).Quiet := by
  intro input
  rw [Party.readElement, hears]
  split <;> rfl

theorem Quiet.bind {party : Party β ε α} {next : α → Party β ε γ} (quiet : party.Quiet)
    (later : ∀ value, (next value).Quiet) : (party >>= next).Quiet := by
  intro input
  rw [hears_bind]
  cases (party.hears input).1 with
  | ok value =>
      rw [quiet input]
      exact later value _
  | error error => exact quiet input

namespace Advances

variable {party next last : Party β ε α} {input output more sent : List β}

theorem trans (first : Advances party input output next) (second : Advances next more sent last) :
    Advances party (input ++ more) (output ++ sent) last := by
  induction first with
  | stay party => exact second
  | write elements rest ih =>
      rw [List.append_assoc]
      exact .write elements (ih second)
  | read elements rest ih =>
      rw [List.append_assoc]
      exact .read elements (ih second)

theorem bind (first : Advances party input output next) (later : α → Party β ε γ) :
    Advances (party >>= later) input output (next >>= later) := by
  induction first with
  | stay party => exact .stay _
  | write elements rest ih => exact .write elements ih
  | read elements rest ih => exact .read elements ih

theorem ignore (first : Advances party input output next) :
    Advances party.ignore input output next.ignore := by
  induction first with
  | stay party => exact .stay _
  | write elements rest ih => exact .write elements ih
  | read elements rest ih => exact .read elements ih

theorem andThen {later : α → Party β ε γ} {last : Party β ε γ} {value : α}
    (first : Advances party input output (pure value))
    (second : Advances (later value) more sent last) :
    Advances (party >>= later) (input ++ more) (output ++ sent) last :=
  (first.bind later).trans second

theorem writeAll (elements : List β) :
    Advances (Party.writeAll elements : Party β ε Unit) [] elements (pure ()) := by
  have wrote := Advances.write elements (.stay (pure () : Party β ε Unit))
  rwa [List.append_nil] at wrote

theorem readExact (eof : ε) (elements : List β) :
    Advances (Party.readExact eof elements.length) elements [] (pure elements) := by
  have got : Advances (Party.readExact eof elements.length) (elements ++ []) [] (pure elements) :=
    .read elements (.stay (pure elements))
  rwa [List.append_nil] at got

theorem readElement (eof : ε) (element : β) :
    Advances (Party.readElement eof) [element] [] (pure element) :=
  .read [element] (.stay (pure element))

end Advances

theorem move_append {party next : Party β ε α} {inbox rest sent : List β}
    (moved : party.move false inbox = some (next, rest, sent)) (peerGone : Bool)
    (more : List β) : party.move peerGone (inbox ++ more) = some (next, rest ++ more, sent) := by
  unfold move at moved
  split at moved
  · cases moved
  · cases moved
    rfl
  · cases moved
    rfl
  · cases moved
    rfl
  · cases moved
    rfl
  · cases moved

end Party

/-- The two tasks, with what is on the way to each. -/
structure Dialogue (β ε α γ : Type) where
  left : Party β ε α
  right : Party β ε γ
  toLeft : List β
  toRight : List β

inductive Turn where
  | left
  | right
deriving DecidableEq

def Turn.other : Turn → Turn
  | left => right
  | right => left

namespace Dialogue

variable {β ε α γ : Type}

def start (left : Party β ε α) (right : Party β ε γ) : Dialogue β ε α γ := ⟨left, right, [], []⟩

def step (talk : Dialogue β ε α γ) : Turn → Option (Dialogue β ε α γ)
  | .left => (talk.left.move talk.right.gone talk.toLeft).map fun (left, toLeft, sent) =>
      { talk with left := left, toLeft := toLeft, toRight := talk.toRight ++ sent }
  | .right => (talk.right.move talk.left.gone talk.toRight).map fun (right, toRight, sent) =>
      { talk with right := right, toRight := toRight, toLeft := talk.toLeft ++ sent }

def swap (talk : Dialogue β ε α γ) : Dialogue β ε γ α :=
  ⟨talk.right, talk.left, talk.toRight, talk.toLeft⟩

theorem step_swap (talk : Dialogue β ε α γ) (turn : Turn) :
    talk.swap.step turn.other = (talk.step turn).map swap := by
  cases turn with
  | left =>
      show Option.map _ (talk.left.move _ _) = Option.map swap (Option.map _ _)
      rw [Option.map_map]
      rfl
  | right =>
      show Option.map _ (talk.right.move _ _) = Option.map swap (Option.map _ _)
      rw [Option.map_map]
      rfl

theorem not_gone_of_move {party next : Party β ε α} {peerGone : Bool}
    {inbox rest sent : List β} (moved : party.move peerGone inbox = some (next, rest, sent)) :
    party.gone = false := by
  cases party with
  | ret result => cases moved
  | write | read => rfl

theorem commutes : Machine.Commutes (step (β := β) (ε := ε) (α := α) (γ := γ)) := by
  intro talk one other first second differ taken taken'
  have crossed {talk one other : Dialogue β ε α γ} (moves : talk.step .left = some one)
      (moves' : talk.step .right = some other) :
      ∃ joined, one.step .right = some joined ∧ other.step .left = some joined := by
    obtain ⟨⟨left, toLeft, sent⟩, moved, rfl⟩ := Option.map_eq_some_iff.mp moves
    obtain ⟨⟨right, toRight, sent'⟩, moved', rfl⟩ := Option.map_eq_some_iff.mp moves'
    rw [not_gone_of_move moved'] at moved
    rw [not_gone_of_move moved] at moved'
    refine ⟨⟨left, right, toLeft ++ sent', toRight ++ sent⟩, ?_, ?_⟩
    · simp only [step, Party.move_append moved', Option.map_some]
    · simp only [step, Party.move_append moved, Option.map_some]
  cases first with
  | left =>
      cases second with
      | left => exact absurd rfl differ
      | right => exact crossed taken taken'
  | right =>
      cases second with
      | left =>
          obtain ⟨joined, later, now⟩ := crossed taken' taken
          exact ⟨joined, now, later⟩
      | right => exact absurd rfl differ

/-! Runs of the two, one task after the other. -/

def Leads (talk next : Dialogue β ε α γ) : Prop :=
  ∃ turns, Machine.run step talk turns = some next

theorem Leads.refl (talk : Dialogue β ε α γ) : Leads talk talk := ⟨[], rfl⟩

theorem Leads.trans {talk next last : Dialogue β ε α γ} (first : Leads talk next)
    (second : Leads next last) : Leads talk last := by
  obtain ⟨turns, ran⟩ := first
  obtain ⟨others, ran'⟩ := second
  exact ⟨turns ++ others, (Machine.run_append_of ran others).trans ran'⟩

theorem Leads.of_step {talk next : Dialogue β ε α γ} (turn : Turn)
    (taken : talk.step turn = some next) : Leads talk next :=
  ⟨[turn], (Machine.run_cons_of taken []).trans rfl⟩

theorem Leads.swap {talk next : Dialogue β ε α γ} (leads : Leads talk next) :
    Leads talk.swap next.swap := by
  obtain ⟨turns, ran⟩ := leads
  induction turns generalizing talk with
  | nil =>
      cases ran
      exact .refl _
  | cons turn turns ih =>
      obtain ⟨middle, taken, ran⟩ := Machine.run_cons ran
      refine Leads.trans (.of_step turn.other ?_) (ih ran)
      rw [step_swap, taken]
      rfl

variable {left left' : Party β ε α} {right right' : Party β ε γ}
  {toLeft toRight input output : List β}

theorem leads_write (elements : List β) :
    Leads ⟨.write elements left, right, toLeft, toRight⟩
      ⟨left, right, toLeft, toRight ++ elements⟩ := by
  induction elements generalizing toRight with
  | nil => exact .of_step .left rfl
  | cons element elements ih =>
      have rest : Leads ⟨.write elements left, right, toLeft, toRight ++ [element]⟩ _ := ih
      rw [List.append_assoc] at rest
      exact .trans (.of_step .left rfl) rest

theorem leads_read (elements : List β) (next : Option (List β) → Party β ε α) :
    Leads ⟨.read elements.length next, right, elements ++ toLeft, toRight⟩
      ⟨next (some elements), right, toLeft, toRight⟩ := by
  induction elements generalizing next with
  | nil =>
      refine .of_step .left ?_
      simp only [step, Party.move, List.length_nil, List.nil_append, Option.map_some,
        List.append_nil]
  | cons element elements ih =>
      refine .trans (.of_step .left ?_) (ih fun got => next (got.map (element :: ·)))
      simp only [step, Party.move, List.length_cons, List.cons_append, Option.map_some,
        List.append_nil]

theorem leads_left (advances : left.Advances input output left') :
    Leads ⟨left, right, input ++ toLeft, toRight⟩
      ⟨left', right, toLeft, toRight ++ output⟩ := by
  induction advances generalizing toRight with
  | stay party =>
      rw [List.nil_append, List.append_nil]
      exact .refl _
  | write elements rest ih =>
      rw [← List.append_assoc]
      exact (leads_write elements).trans ih
  | read elements rest ih =>
      rw [List.append_assoc]
      exact (leads_read elements _).trans ih

theorem leads_right (advances : right.Advances input output right') :
    Leads ⟨left, right, toLeft, input ++ toRight⟩
      ⟨left, right', toLeft ++ output, toRight⟩ :=
  (leads_left advances).swap

/-- The task takes all that has come to it, and what it says is all that is on the
way. -/
theorem leads_turn (advances : left.Advances input output left') :
    Leads ⟨left, right, input, []⟩ ⟨left', right, [], output⟩ := by
  have leads : Leads ⟨left, right, input ++ [], []⟩ ⟨left', right, [], [] ++ output⟩ :=
    leads_left advances
  rwa [List.append_nil] at leads

theorem leads_answer (advances : right.Advances input output right') :
    Leads ⟨left, right, [], input⟩ ⟨left, right', output, []⟩ :=
  (leads_turn advances).swap

theorem leads_eof {count : Nat} {next : Option (List β) → Party β ε α}
    (gone : right.gone = true) (short : toLeft.length < count) :
    Leads ⟨.read count next, right, toLeft, toRight⟩ ⟨next none, right, [], toRight⟩ := by
  induction toLeft generalizing count next with
  | nil =>
      obtain ⟨count, rfl⟩ := Nat.exists_eq_succ_of_ne_zero (Nat.ne_of_gt short)
      refine .of_step .left ?_
      simp only [step, Party.move, gone, if_true, Option.map_some, List.append_nil]
  | cons element toLeft ih =>
      obtain ⟨count, rfl⟩ := Nat.exists_eq_succ_of_ne_zero (Nat.ne_of_gt (Nat.zero_lt_of_lt short))
      refine .trans (.of_step .left ?_)
        (@ih count (fun got => next (got.map (element :: ·))) (Nat.lt_of_succ_lt_succ short))
      simp only [step, Party.move, Option.map_some, List.append_nil]

theorem leads_eof_right {count : Nat} {next : Option (List β) → Party β ε γ}
    (gone : left.gone = true) (short : toRight.length < count) :
    Leads ⟨left, .read count next, toLeft, toRight⟩ ⟨left, next none, toLeft, []⟩ :=
  (leads_eof gone short).swap

theorem leads_hears (gone : left.gone = true) :
    Leads ⟨left, right, toLeft, input⟩
      ⟨left, .ret (right.hears input).1, toLeft ++ (right.hears input).2.1,
        (right.hears input).2.2⟩ := by
  induction right generalizing input toLeft with
  | ret result =>
      rw [Party.hears, List.append_nil]
      exact .refl _
  | write elements next ih =>
      have rest : Leads ⟨left, next, toLeft ++ elements, input⟩ _ := ih
      rw [List.append_assoc] at rest
      exact (leads_write elements).swap.trans rest
  | read count next ih =>
      rw [Party.hears]
      split
      · rename_i short
        exact (leads_eof_right gone short).trans (ih none)
      · rename_i long
        have took : Leads (⟨.read _ next, left, input.take count ++ input.drop count, toLeft⟩ :
            Dialogue β ε γ α) _ := leads_read (input.take count) next
        rw [List.length_take_of_le (Nat.le_of_not_lt long), List.take_append_drop] at took
        exact took.swap.trans (ih (some (input.take count)))

theorem stopped_ret {one : Except ε α} {other : Except ε γ} :
    Machine.Stopped step (⟨.ret one, .ret other, toLeft, toRight⟩ : Dialogue β ε α γ) := by
  intro turn
  cases turn <;> rfl

/-- Tasks that can come to their results always do: in every order of their moves
the results are these, and so is what is left on the way. -/
theorem ends_of_leads {talk : Dialogue β ε α γ} {one : Except ε α} {other : Except ε γ}
    (leads : Leads talk ⟨.ret one, .ret other, toLeft, toRight⟩) :
    Machine.Ends step talk ⟨.ret one, .ret other, toLeft, toRight⟩ := by
  obtain ⟨turns, ran⟩ := leads
  exact Machine.ends_of_run commutes stopped_ret ran

/-- A task that comes to a result on the first part of what its peer writes. -/
theorem ends_of_advances {result : Except ε γ}
    (advances : right.Advances input output (.ret result)) (more : List β) :
    Machine.Ends step (start (Party.writeAll (input ++ more) : Party β ε Unit) right)
      ⟨pure (), .ret result, output, more⟩ :=
  ends_of_leads ((leads_turn (.writeAll (input ++ more))).trans (leads_right advances))

theorem right_of_run {talk next : Dialogue β ε α γ} {turns : List Turn} {result : Except ε γ}
    (ran : Machine.run step talk turns = some next) (done : talk.right = .ret result) :
    next.right = .ret result := by
  refine Machine.run_invariant (fun talk => talk.right = .ret result) ?_ done ran
  intro talk turn next done taken
  cases turn with
  | left =>
      obtain ⟨after, -, rfl⟩ := Option.map_eq_some_iff.mp taken
      exact done
  | right =>
      obtain ⟨after, moved, -⟩ := Option.map_eq_some_iff.mp taken
      rw [done] at moved
      cases moved

/-- A result that a task has come to on the way is the one that it comes to. -/
theorem right_eq_of_ends {talk last next : Dialogue β ε α γ} {turns : List Turn}
    {result : Except ε γ} (ends : Machine.Ends step talk last)
    (ran : Machine.run step talk turns = some next) (done : next.right = .ret result) :
    last.right = .ret result := by
  obtain ⟨bound, always⟩ := ends.always
  obtain ⟨rest, ran', -⟩ := always ran
  exact right_of_run ran' done

/-- In whatever pieces the elements come, a task that hears them and then the end
does with them what it does with all of them at once. -/
theorem ends_hears (input : List β) (error : ε) (right : Party β ε γ) :
    Machine.Ends step
      (start (Party.writeAll input >>= fun _ => (Party.throw error : Party β ε α)) right)
      ⟨.ret (.error error), .ret (right.hears input).1, (right.hears input).2.1,
        (right.hears input).2.2⟩ := by
  refine ends_of_leads ((leads_turn ((Party.Advances.writeAll input).bind _)).trans ?_)
  exact leads_hears rfl

end Dialogue

end QuicProxy
