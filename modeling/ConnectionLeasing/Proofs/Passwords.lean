import ConnectionLeasing.Proofs.Affine.Playing
import ConnectionLeasing.Proofs.Pooled.Playing

/-!
# No password shows

Two runs that are given the same under different passwords are the same under different passwords,
whatever these are, as long as the identities of the runs are kept apart. So what is shown of a run
depends on passwords only as far as they make identities different.

* `Affine.runs_alike`, `Pooled.runs_alike`, `Pooled.rehearsals_alike`: two runs of a manager.
* `passwords_unseen`: both managers, and all their texts.
-/

namespace ConnectionLeasing

variable {π ρ : Renaming}

namespace Affine

/-- The identities of some inputs. -/
def identities (inputs : List (Input Command)) : List Identity :=
  inputs.flatMap (·.identities (·.identities))

/-- The inputs under other passwords. -/
def renamed (π : Renaming) (inputs : List (Input Command)) : List (Input Command) :=
  inputs.map (·.rename π (·.rename π))

section alike
variable {inputs : List (Input Command)} (hρ : ρ.Extends π (identities inputs))
  (settings : ManagerSettings) (factory : Factory) (now : Nat)
include hρ

/-- **Two runs of a context-affine manager are alike** if they are given the same under different
passwords. -/
theorem runs_alike : (System.initial settings factory now).run? (renamed π inputs) =
    ((System.initial settings factory now).run? inputs).map (·.rename ρ) := by
  have hinputs : renamed π inputs = renamed ρ inputs :=
    (Input.map_rename_congr Command.rename_congr hρ.agrees).symm
  have hrun := (System.initial settings factory now).run?_rename hρ.injective inputs
  rw [System.initial_rename] at hrun
  rw [hinputs]
  exact hrun

theorem texts_alike :
    ((System.initial settings factory now).run? (renamed π inputs)).map (·.texts) =
      ((System.initial settings factory now).run? inputs).map (·.texts) := by
  rw [runs_alike hρ, Option.map_map]
  exact congrArg (Option.map · _) (funext System.texts_rename)

end alike

end Affine

namespace Pooled

/-- The identities of some inputs. -/
def identities (inputs : List (Input Asked)) : List Identity :=
  inputs.flatMap (·.identities (·.identities))

/-- The inputs under other passwords. -/
def renamed (π : Renaming) (inputs : List (Input Asked)) : List (Input Asked) :=
  inputs.map (·.rename π (·.rename π))

theorem identities_subset {inputs inputs' : List (Input Asked)} (h : inputs ⊆ inputs') :
    identities inputs ⊆ identities inputs' := fun _ hi =>
  have ⟨x, hx, hi⟩ := List.mem_flatMap.mp hi
  List.mem_flatMap.mpr ⟨x, h hx, hi⟩

theorem renamed_eq {inputs : List (Input Asked)} (hρ : ρ.Extends π (identities inputs)) :
    renamed π inputs = renamed ρ inputs :=
  (Input.map_rename_congr Asked.rename_congr hρ.agrees).symm

section alike
variable {inputs : List (Input Asked)} (hρ : ρ.Extends π (identities inputs))
  (settings : ManagerSettings) (factory : Factory) (now : Nat)
include hρ

/-- **Two runs of a pooled manager are alike** if they are given the same under different
passwords. -/
theorem runs_alike : (System.initial settings factory now).run? (renamed π inputs) =
    ((System.initial settings factory now).run? inputs).map (·.rename ρ) := by
  have hrun := (System.initial settings factory now).run?_rename hρ.injective inputs
  rw [System.initial_rename] at hrun
  rw [renamed_eq hρ]
  exact hrun

theorem texts_alike :
    ((System.initial settings factory now).run? (renamed π inputs)).map (·.texts) =
      ((System.initial settings factory now).run? inputs).map (·.texts) := by
  rw [runs_alike hρ, Option.map_map]
  exact congrArg (Option.map · _) (funext System.texts_rename)

end alike

theorem rehearsals_alike {acts : List (List (Input Asked))}
    (hρ : ρ.Extends π (identities acts.flatten)) (m : System) :
    (⟨m.rename ρ, acts.map (renamed π)⟩ : Rehearsal) = Rehearsal.rename ρ ⟨m, acts⟩ := by
  have hacts : acts.map (renamed π) = acts.map (renamed ρ) :=
    List.map_congr_left fun _ hact =>
      renamed_eq (hρ.mono (identities_subset fun _ => List.mem_flatten_of_mem hact))
  rw [hacts]
  rfl

end Pooled

/-- **No password shows**, neither in the text of an identity nor in that of an error; and if two
runs of a manager are given the same under different passwords, which keep the identities of the
runs apart, then both come to the same, under the different passwords, and to the same texts. This
is so in every run (`Reachable`), with the borrowers that wait in it, and for all orders in which
maps are enumerated. -/
theorem passwords_unseen (π : Renaming) :
    (∀ i : Identity, (i.rename π).texts = i.texts) ∧
    (∀ e : LeaseError, (e.rename π).texts = e.texts) ∧
    (∀ (settings : ManagerSettings) (factory : Factory) (now : Nat)
        (inputs : List (Input Affine.Command)), π.Separates (Affine.identities inputs) →
      let m := Affine.System.initial settings factory now
      (m.run? (Affine.renamed π inputs)).map (·.texts) = (m.run? inputs).map (·.texts) ∧
      ∃ ρ : Renaming, ρ.Extends π (Affine.identities inputs) ∧
        m.run? (Affine.renamed π inputs) = (m.run? inputs).map (·.rename ρ)) ∧
    (∀ (settings : ManagerSettings) (factory : Factory) (now : Nat)
        (inputs : List (Input Pooled.Asked)) (acts : List (List (Input Pooled.Asked))),
        π.Separates (Pooled.identities (inputs ++ acts.flatten)) →
      let m := Pooled.System.initial settings factory now
      (m.run? (Pooled.renamed π inputs)).map (·.texts) = (m.run? inputs).map (·.texts) ∧
      ∃ ρ : Renaming, ρ.Extends π (Pooled.identities (inputs ++ acts.flatten)) ∧
        m.run? (Pooled.renamed π inputs) = (m.run? inputs).map (·.rename ρ) ∧
        ∀ (m : Pooled.System) (id : Nat) (timeout : Duration) (tries : Nat),
          let w : Pooled.Rehearsal := ⟨m, acts⟩
          let w' : Pooled.Rehearsal := ⟨m.rename ρ, acts.map (Pooled.renamed π)⟩
          let S := Pooled.Rehearsal.surroundings id
          let other := Prod.map (·.rename ρ) (Option.map (Except.mapError (·.rename ρ)))
          Waiting.block S timeout tries w' = other (Waiting.block S timeout tries w) ∧
            Waiting.poll S timeout tries w' = other (Waiting.poll S timeout tries w)) ∧
    (∀ m, Affine.Reachable .any m → ∃ settings factory now inputs,
      (Affine.System.initial settings factory now).run? inputs = some m) ∧
    ∀ m, Pooled.Reachable m → ∃ settings factory now inputs,
      (Pooled.System.initial settings factory now).run? inputs = some m := by
  refine ⟨Identity.texts_rename, LeaseError.texts_rename, ?affine, ?pooled,
    fun _ => Affine.Reachable.played, fun _ => Pooled.Reachable.played⟩
  case affine =>
    intro settings factory now inputs hπ
    obtain ⟨ρ, hρ⟩ := hπ.exists_extends
    exact ⟨Affine.texts_alike hρ settings factory now,
      ρ, hρ, Affine.runs_alike hρ settings factory now⟩
  case pooled =>
    intro settings factory now inputs acts hπ
    obtain ⟨ρ, hρ⟩ := hπ.exists_extends
    have hinputs := hρ.mono (Pooled.identities_subset (List.subset_append_left inputs acts.flatten))
    have hacts := hρ.mono (Pooled.identities_subset (List.subset_append_right inputs acts.flatten))
    refine ⟨Pooled.texts_alike hinputs settings factory now, ρ, hρ,
      Pooled.runs_alike hinputs settings factory now, fun m id timeout tries => ?_⟩
    dsimp only
    rw [Pooled.rehearsals_alike hacts m]
    exact ⟨Pooled.Rehearsal.block_rename hρ.injective id timeout tries _,
      Pooled.Rehearsal.poll_rename hρ.injective id timeout tries _⟩

/-! ### One account under two passwords -/

def oldAccount : Identity := ⟨"host", 22, "user", "old"⟩

def newAccount : Identity := ⟨"host", 22, "user", "new"⟩

/-- Other passwords for both. -/
def replaced : Renaming := fun i => if i.password = "old" then "first" else "second"

/-- A borrow under the old password, one that fails under the new password, and one too many. -/
def Affine.oneAccount : List (Input Command) :=
  [.start (.borrow ⟨oldAccount, ⟨1⟩, .sftp⟩), .start (.borrow ⟨newAccount, ⟨1⟩, .sftp⟩),
    .reply 1 (.connected ⟨⟨1, .sftp⟩, none⟩),
    .reply 0 (.connected ⟨⟨2, .sftp⟩, some (.connectFailure newAccount "refused")⟩),
    .start (.borrow ⟨oldAccount, ⟨2⟩, .sftp⟩)]

/-- A pool for each password. -/
def Pooled.oneAccount : List (Input Asked) :=
  [.start ⟨.select ⟨oldAccount, .sftp⟩ ⟨1⟩, []⟩, .start ⟨.select ⟨newAccount, .sftp⟩ ⟨1⟩, []⟩]

/-- A try that fails, under the new password. -/
def Pooled.failedTry : List (List (Input Asked)) :=
  [[.start ⟨.inPool 1 .tryBorrow, []⟩,
    .reply 0 (.connected ⟨⟨1, .sftp⟩, some (.connectFailure newAccount "refused")⟩)]]

/-- The new password is another one in the second run, and the errors and pools have the same texts
and names. -/
theorem passwords_unseen_one_account :
    (∃ m m' : Affine.System,
      (Affine.System.initial { maxConnections := 1 } .faithful 0).run? Affine.oneAccount = some m ∧
      (Affine.System.initial { maxConnections := 1 } .faithful 0).run?
        (Affine.renamed replaced Affine.oneAccount) = some m' ∧
      m.events.flatMap (·.errors) = [.connectFailure newAccount "refused",
        .connectFailure newAccount "refused", .limitExceeded oldAccount ⟨2⟩ 1 1] ∧
      m'.texts = m.texts) ∧
    ∃ m m' : Pooled.System,
      (Pooled.System.initial {} .faithful 0).run? Pooled.oneAccount = some m ∧
      (Pooled.System.initial {} .faithful 0).run? (Pooled.renamed replaced Pooled.oneAccount) =
        some m' ∧
      m.texts.pools = ["user@host:22/sftp", "user@host:22/sftp"] ∧ m'.texts = m.texts ∧
      (Waiting.block (Pooled.Rehearsal.surroundings 1) ⟨0⟩ 1 ⟨m, Pooled.failedTry⟩).2 =
        some (.error (.connectFailure newAccount "refused")) ∧
      (Waiting.block (Pooled.Rehearsal.surroundings 1) ⟨0⟩ 1
        ⟨m', Pooled.failedTry.map (Pooled.renamed replaced)⟩).2 =
          some (.error (.connectFailure { newAccount with password := "second" } "refused")) := by
  obtain ⟨-, -, haffine, hpooled, -, -⟩ := passwords_unseen replaced
  refine ⟨?affine, ?pooled⟩
  case affine =>
    have herrors : ((Affine.System.initial { maxConnections := 1 } .faithful 0).run?
        Affine.oneAccount).map (·.events.flatMap (·.errors)) =
          some [.connectFailure newAccount "refused", .connectFailure newAccount "refused",
            .limitExceeded oldAccount ⟨2⟩ 1 1] := by cbv
    obtain ⟨htexts, ρ, -, hrun⟩ :=
      haffine { maxConnections := 1 } .faithful 0 Affine.oneAccount (by decide)
    obtain ⟨m, hm, herrors⟩ := Option.map_eq_some_iff.mp herrors
    rw [hm] at hrun htexts
    rw [hrun] at htexts
    exact ⟨m, m.rename ρ, hm, hrun, herrors, Option.some.inj htexts⟩
  case pooled =>
    have hblock : ((Pooled.System.initial {} .faithful 0).run? Pooled.oneAccount).map (fun m =>
        (m.texts.pools, (Waiting.block (Pooled.Rehearsal.surroundings 1) ⟨0⟩ 1
          ⟨m, Pooled.failedTry⟩).2)) =
        some (["user@host:22/sftp", "user@host:22/sftp"],
          some (.error (.connectFailure newAccount "refused"))) := by cbv
    obtain ⟨htexts, ρ, hρ, hrun, hwaits⟩ :=
      hpooled {} .faithful 0 Pooled.oneAccount Pooled.failedTry (by decide)
    obtain ⟨m, hm, hblock⟩ := Option.map_eq_some_iff.mp hblock
    obtain ⟨hpools, hblock⟩ := Prod.mk.inj hblock
    rw [hm] at hrun htexts
    rw [hrun] at htexts
    have hsecond : newAccount.rename ρ = { newAccount with password := "second" } :=
      (hρ.agrees newAccount (by decide)).trans (by decide)
    refine ⟨m, m.rename ρ, hm, hrun, hpools, Option.some.inj htexts, hblock, ?_⟩
    rw [(hwaits m 1 ⟨0⟩ 1).1, Prod.map_snd, hblock, ← hsecond]
    rfl

end ConnectionLeasing
