import Bootscript.Generator

/-! What a generator makes of a script in a tree of files. A run reads the bytes of the
script once, and nothing it makes of them depends on whether they came from a file. -/
namespace Bootscript

/-- Both parts of a computation that went well. -/
theorem exists_of_bind_eq_ok {ε α β : Type} {x : Except ε α} {f : α → Except ε β} {b : β}
    (done : x >>= f = .ok b) : ∃ a, x = .ok a ∧ f a = .ok b := by
  cases x with
  | error => cases done
  | ok a => exact ⟨a, rfl, done⟩

theorem map_eq_ok_iff {ε α β : Type} {x : Except ε α} {f : α → β} {b : β} :
    x.map f = .ok b ↔ ∃ a, x = .ok a ∧ f a = b := by
  cases x with
  | error => exact ⟨nofun, nofun⟩
  | ok a =>
    constructor
    · exact fun done => ⟨a, rfl, Except.ok.inj done⟩
    · rintro ⟨_, same, rfl⟩
      cases same
      rfl

theorem ok_mapError {ε ε' α : Type} (f : ε → ε') (a : α) :
    (Except.ok a).mapError f = .ok a := rfl

/-- Whether a closed computation went well can be decided by what it yields. -/
theorem eq_ok_of_toOption {ε α : Type} {x : Except ε α} {a : α} (done : x.toOption = some a) :
    x = .ok a := by
  cases x with
  | error => cases done
  | ok b => cases done; rfl

theorem ok_bind {ε α β : Type} (a : α) (f : α → Except ε β) : .ok a >>= f = f a := rfl

namespace Surroundings

@[simp] theorem bind_apply {α β : Type} (x : ReaderM Surroundings α)
    (f : α → ReaderM Surroundings β) (s : Surroundings) : (x >>= f) s = f (x s) s := rfl

@[simp] theorem pure_apply {α : Type} (a : α) (s : Surroundings) :
    (pure a : ReaderM Surroundings α) s = a := rfl

theorem allow_eq_ok_iff {s : Surroundings} {access : Access} {path : Bytes} {α : Type}
    {found : Except OsError α} {a : α} :
    s.allow access path found = .ok a ↔ s.refusal access path = none ∧ found = .ok a := by
  unfold allow
  cases s.refusal access path with
  | none => simp
  | some cause => exact ⟨nofun, fun allowed => nomatch allowed.1⟩

end Surroundings

namespace Generator

/-- What a generator makes of the bytes of a script, once its payload is there. -/
def regenerate (g : Generator) (data : Bytes) (payload : Except Failure (Option Payload)) :
    Except Failure Bytes := do
  let script ← g.parse data
  return (script.install g.launcher (← payload)).bytes

variable (g : Generator) (s : Surroundings) (distributable : Bool)

def payloadIn : Except Failure (Option Payload) :=
  g.payload (m := ReaderM Surroundings) distributable s

theorem map_bytes_render (data : Bytes) :
    (g.render (m := ReaderM Surroundings) data distributable s).map Script.bytes =
      g.regenerate data (g.payloadIn s distributable) := by
  unfold render regenerate payloadIn
  cases g.parse data with
  | error => rfl
  | ok script =>
    simp only [Surroundings.bind_apply]
    cases g.payload (m := ReaderM Surroundings) distributable s <;> rfl

theorem generate_standard : g.generate (m := ReaderM Surroundings) .standard distributable s =
    (g.regenerate s.input (g.payloadIn s distributable)).map fun output => { output } := by
  have input : source? (m := ReaderM Surroundings) .standard s = .ok s.input := rfl
  rw [← map_bytes_render]
  unfold generate
  simp only [Surroundings.bind_apply, input]
  cases g.render (m := ReaderM Surroundings) s.input distributable s <;> rfl

theorem generate_file (path : Bytes) :
    g.generate (m := ReaderM Surroundings) (.file path) distributable s = (do
      let data ← (s.read path).mapError .os
      let bytes ← g.regenerate data (g.payloadIn s distributable)
      let mode ← (s.mode path).mapError .os
      if Replacement.hasRoom (Path.ofNames s.working) path then
        return { replacement := some ⟨path, bytes, executable mode⟩ }
      else .error (.os .nameTooLong) : Except Failure Product) := by
  have input : source? (m := ReaderM Surroundings) (.file path) s =
      (s.read path).mapError .os := rfl
  have mode : Host.mode (m := ReaderM Surroundings) path s = s.mode path := rfl
  have working : Host.workingDirectory (m := ReaderM Surroundings) s = Path.ofNames s.working := rfl
  unfold generate
  simp only [Surroundings.bind_apply, input]
  cases s.read path with
  | error => rfl
  | ok data =>
    simp only [ok_mapError, ← map_bytes_render, Surroundings.bind_apply, ok_bind]
    cases g.render (m := ReaderM Surroundings) data distributable s with
    | error => rfl
    | ok script =>
      simp only [replacement, Surroundings.bind_apply, mode, Except.map, ok_bind]
      cases s.mode path with
      | error => rfl
      | ok mode =>
        simp only [Surroundings.bind_apply, working, ok_mapError, ok_bind]
        cases Replacement.hasRoom (Path.ofNames s.working) path <;> rfl

theorem eq_ok_of_mapError {ε ε' α : Type} {f : ε → ε'} {x : Except ε α} {a : α}
    (done : x.mapError f = .ok a) : x = .ok a := by
  cases x with
  | error => cases done
  | ok b => cases done; rfl

theorem regenerate_eq_ok_iff {data bytes : Bytes} {payload : Except Failure (Option Payload)} :
    g.regenerate data payload = .ok bytes ↔ ∃ script found, g.parse data = .ok script ∧
      payload = .ok found ∧ bytes = (script.install g.launcher found).bytes := by
  constructor
  · intro done
    obtain ⟨script, parsed, done⟩ := exists_of_bind_eq_ok done
    obtain ⟨found, archived, done⟩ := exists_of_bind_eq_ok done
    cases done
    exact ⟨script, found, parsed, archived, rfl⟩
  · rintro ⟨script, found, parsed, rfl, rfl⟩
    rw [regenerate, parsed]
    rfl

/-- All that a run in place has read, and what it has to write. -/
theorem exists_of_generate_file {path : Bytes} {p : Product}
    (done : g.generate (m := ReaderM Surroundings) (.file path) distributable s = .ok p) :
    ∃ data mode bytes, s.read path = .ok data ∧ s.mode path = .ok mode ∧
      g.regenerate data (g.payloadIn s distributable) = .ok bytes ∧
      Replacement.hasRoom (Path.ofNames s.working) path ∧
      p = { replacement := some ⟨path, bytes, executable mode⟩ } := by
  rw [generate_file] at done
  obtain ⟨data, read, done⟩ := exists_of_bind_eq_ok done
  obtain ⟨bytes, regenerated, done⟩ := exists_of_bind_eq_ok done
  obtain ⟨mode, hadMode, done⟩ := exists_of_bind_eq_ok done
  split at done
  · rename_i room
    cases done
    exact ⟨data, mode, bytes, eq_ok_of_mapError read, eq_ok_of_mapError hadMode, regenerated,
      room, rfl⟩
  · cases done

end Generator

section Same

variable {source : RuntimeSource} {s s' : Surroundings}

theorem collect_congr {items : List RuntimeSource.Item}
    (same : ∀ item ∈ items, s'.read (item.path source) =
      s.read (item.path source)) (members : List Archive.Member) :
    source.collect (m := ReaderM Surroundings) items members s' =
      source.collect (m := ReaderM Surroundings) items members s := by
  induction items generalizing members with
  | nil => rfl
  | cons item items ih =>
    obtain ⟨first, later⟩ := List.forall_mem_cons.1 same
    have read : Host.read (m := ReaderM Surroundings) (item.path source) s' =
      Host.read (m := ReaderM Surroundings) (item.path source) s := first
    unfold RuntimeSource.collect
    simp only [Surroundings.bind_apply, read]
    cases Host.read (m := ReaderM Surroundings) (item.path source) s with
    | error => rfl
    | ok data =>
      simp only
      split
      · rfl
      · exact ih later _

/-- An archive depends on what is selected, what can be read of it, and who packs it. -/
theorem archive_congr (packer : s'.pack = s.pack)
    (items : source.items (m := ReaderM Surroundings) s' =
      source.items (m := ReaderM Surroundings) s)
    (same : ∀ items, source.items (m := ReaderM Surroundings) s = .ok items →
      ∀ item ∈ items, s'.read (item.path source) =
        s.read (item.path source)) :
    source.archive (m := ReaderM Surroundings) s' =
      source.archive (m := ReaderM Surroundings) s := by
  have pack (members : List Archive.Member) : Host.pack (m := ReaderM Surroundings) members s' =
      Host.pack (m := ReaderM Surroundings) members s := congrFun packer members
  simp only [RuntimeSource.archive, RuntimeSource.members, Surroundings.bind_apply, items]
  rcases found : source.items (m := ReaderM Surroundings) s with _ | _ | ⟨item, rest⟩
  · rfl
  · rfl
  · simp only [collect_congr (same _ found)]
    cases source.collect (m := ReaderM Surroundings) (item :: rest) [] s <;>
      simp only [Surroundings.bind_apply, pack] <;> rfl

end Same

section Input

variable (s : Surroundings) (input : Bytes)

theorem items_input (source : RuntimeSource) :
    source.items (m := ReaderM Surroundings) { s with input } =
      source.items (m := ReaderM Surroundings) s := by
  have same : Host.survey (m := ReaderM Surroundings) source.root { s with input } =
    Host.survey (m := ReaderM Surroundings) source.root s := rfl
  unfold RuntimeSource.items
  simp only [Surroundings.bind_apply, same]
  cases Host.survey (m := ReaderM Surroundings) source.root s <;> rfl

/-- What is read of the runtime does not depend on the input of the run. -/
theorem payloadIn_input (g : Generator) (distributable : Bool) :
    g.payloadIn { s with input } distributable = g.payloadIn s distributable := by
  cases distributable with
  | false => rfl
  | true =>
    have same : g.source.archive (m := ReaderM Surroundings) { s with input } =
        g.source.archive (m := ReaderM Surroundings) s :=
      archive_congr rfl (items_input s input g.source) fun _ _ _ _ => rfl
    simp only [Generator.payloadIn, Generator.payload, ↓reduceIte, Surroundings.bind_apply, same]
    rfl

end Input

end Bootscript
