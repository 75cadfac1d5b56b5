import ConnectionLeasing.Affine.Operation

/-!
# Operations that nothing comes between

An operation of which every call is answered before anything else happens, and at the moment it
began. The answers are arbitrary: a disconnect may fail, for example.

* `Step.Ends`: whatever the answers are, the operation comes to an end.
* `Step.Leads`: some answers take it to a given end.
-/

namespace ConnectionLeasing

theorem Call.nonempty_answer : ∀ c : Call, Nonempty c.Answer
  | .visit .. | .tick _ => ⟨()⟩
  | .check _ => ⟨true⟩
  | .connect channel .. => ⟨⟨⟨0, channel⟩, none⟩⟩
  | .disconnect _ => ⟨none⟩

namespace Affine

/-- Whatever its calls are answered, a step comes to an end, and the state it leaves and its result
satisfy `Q`. -/
inductive Step.Ends (now : Nat) (Q : State → Result → Prop) : Step → Prop
  | done {s : State} {r : Result} (h : Q s r) : Step.Ends now Q (s, .done r)
  | paused {s : State} {f : Frame} (h : ∀ a, Step.Ends now Q (resume s now f a)) :
    Step.Ends now Q (s, .paused f)

/-- For some answers to its calls, a step comes to an end with state `s'` and result `r'`. -/
inductive Step.Leads (now : Nat) (s' : State) (r' : Result) : Step → Prop
  | done : Step.Leads now s' r' (s', .done r')
  | paused {s : State} {f : Frame} (a : f.call.Answer)
    (h : Step.Leads now s' r' (resume s now f a)) : Step.Leads now s' r' (s, .paused f)

variable {now : Nat} {Q Q' : State → Result → Prop} {step : Step}

theorem Step.Ends.imp (h : step.Ends now Q) (hQ : ∀ s r, Q s r → Q' s r) : step.Ends now Q' := by
  induction h with
  | done h => exact .done (hQ _ _ h)
  | paused _ ih => exact .paused ih

theorem Step.Ends.of_leads (h : step.Ends now Q) {s' : State} {r' : Result}
    (hl : step.Leads now s' r') : Q s' r' := by
  induction hl with
  | done =>
    cases h with
    | done h => exact h
  | paused a _ ih =>
    cases h with
    | paused h => exact ih (h a)

theorem Step.Ends.exists_leads (h : step.Ends now Q) : ∃ s' r', step.Leads now s' r' ∧ Q s' r' := by
  induction h with
  | done h => exact ⟨_, _, .done, h⟩
  | @paused s f _ ih =>
    obtain ⟨a⟩ := f.call.nonempty_answer
    obtain ⟨s', r', hl, hQ⟩ := ih a
    exact ⟨s', r', .paused a hl, hQ⟩

end Affine

end ConnectionLeasing
