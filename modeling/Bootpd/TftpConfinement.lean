import Bootpd.TftpTransitions

/-!
# Which files a session opens

`tftp_base_dir` is documented as the root directory for TFTP requests. The session joins it with
the requested name and checks that the result is a regular file; nothing checks that it lies in
the base directory. A session opens at most that one path, and `Confined` says for which names it
is inside.

## Inside

A path is inside a base if it has the root of the base and its names, in normal form, begin with
those of the base. This is a property of the texts: no file system is asked, and symbolic links are
not followed. The normal form takes `.` and `..` away, so `..` leads out where there are more of
them than names in front, and a name that leads out and back in is inside.

Joining is that of the standard. A name that is absolute, or has another root name, replaces the
base; one that has a root directory only keeps the root name of the base; any other goes behind the
base. `Confined` has these three cases, and needs the base and the name but not what becomes of
them.

## Main definitions

* `Path.Confined` — the names that stay in a base
* `OpensOnly` — an event opens no other file

## Main results

* `Path.inside_append_iff` — when `base / name` lies in `base`
* `TftpSessionV4.run_opens` — a session opens no file but that
* `TftpSessionV4.opened_inside_iff` — so when a session opens a file in its base directory
* `TftpSessionV4.opened_outside` — `../secret`
-/

namespace Bootpd

open Imperative SocketUdp LexicalPath

/-! ### Joining paths -/

namespace Path

/-- The names `name` that stay in `base` when they are joined to it. -/
def Confined (base name : Path) : Prop :=
  if name.isAbsolute || (!name.rootName.isEmpty && name.rootName != base.rootName) then
    -- the name replaces the base, so it has to name the base itself
    name.rootName = base.rootName ∧ base.rootDirectory = true ∧
      base.lexicallyNormal.names <+: name.lexicallyNormal.names
  else if name.rootDirectory then
    -- the name starts again at the root of the base
    base.rootDirectory = true ∧ base.lexicallyNormal.names <+: name.lexicallyNormal.names
  else
    -- the name may climb out of the base only to come back along the same names
    (base.rootDirectory = false →
        name.lexicallyNormal.ups ≤ base.lexicallyNormal.names.length) ∧
      base.lexicallyNormal.names.drop
        (base.lexicallyNormal.names.length - name.lexicallyNormal.ups) <+:
          name.lexicallyNormal.names

instance (base name : Path) : Decidable (base.Confined name) := by
  rw [Confined]
  split
  · infer_instance
  · split <;> infer_instance

theorem component_nil {c : StdString} (h : (!c.isEmpty) = false) : component c = .here := by
  have hc : c = [] := by simpa using h
  rw [component, if_pos (.inl hc)]

/-- A name without root is walked from the normal form of the base. -/
theorem lexicallyNormal_append {base name : Path} (hroot : name.rootDirectory = false)
    (hname : (name.isAbsolute || (!name.rootName.isEmpty && name.rootName != base.rootName)) =
      false) :
    (base.append name).rootName = base.rootName ∧
      (base.append name).rootDirectory = base.rootDirectory ∧
      (base.append name).lexicallyNormal =
        walk base.rootDirectory base.lexicallyNormal name.components := by
  rw [append]
  rw [if_neg (by simp [hname]), if_neg (by simp [hroot])]
  refine ⟨rfl, rfl, ?_⟩
  simp only [lexicallyNormal, normal, components, List.map_append]
  rw [walk_append, walk_map_filter _ fun c => component_nil]
  split
  · rename_i h
    have hempty : name.relative = [] := List.isEmpty_iff.mp (Bool.and_eq_true_iff.mp h).1
    rw [hempty]
    rfl
  · rfl

theorem lexicallyNormal_ups {p : Path} (h : p.rootDirectory = true) :
    p.lexicallyNormal.ups = 0 := by
  rw [lexicallyNormal, normal, h, ups_walk_rooted]
  rfl

/-- Below a root only the names count. -/
theorem inside_rooted_iff {base p : Path} (hp : p.rootDirectory = true)
    (hname : p.rootName = base.rootName) :
    base.Inside p ↔ base.rootDirectory = true ∧
      base.lexicallyNormal.names <+: p.lexicallyNormal.names := by
  rw [Inside, hp, eq_comm (a := true)]
  refine ⟨fun ⟨_, hdir, hnames⟩ => ⟨hdir, hnames.2⟩,
    fun ⟨hdir, hnames⟩ => ⟨hname, hdir, ?_, hnames⟩⟩
  rw [lexicallyNormal_ups hp, lexicallyNormal_ups hdir]

/-- **When a joined path is inside.** -/
theorem inside_append_iff (base name : Path) :
    base.Inside (base.append name) ↔ base.Confined name := by
  rw [Confined]
  split
  · rename_i h
    have happend : base.append name = name := by rw [append, if_pos h]
    rw [happend]
    by_cases hname : name.rootName = base.rootName
    · -- the same root name, so the path is absolute
      have hdir : name.rootDirectory = true := by
        simp only [hname, isAbsolute, bne_self_eq_false, Bool.and_false, Bool.or_false,
          Bool.and_eq_true] at h
        exact h.2
      rw [inside_rooted_iff hdir hname]
      simp [hname]
    · simp [Inside, hname]
  · rename_i h
    rw [Bool.not_eq_true] at h
    split
    · rename_i hroot
      have happend : base.append name = { name with rootName := base.rootName } := by
        rw [append, h, if_neg Bool.false_ne_true, if_pos hroot]
      have hdir : ({ name with rootName := base.rootName } : Path).rootDirectory = true := hroot
      rw [happend]
      exact inside_rooted_iff hdir rfl
    · rename_i hroot
      rw [Bool.not_eq_true] at hroot
      obtain ⟨hname, hdir, hnormal⟩ := lexicallyNormal_append hroot h
      rw [Inside, hname, hdir, hnormal, contains_walk_iff]
      simp only [true_and, lexicallyNormal, hroot]

end Path

/-! ### What a session opens -/

/-- The event opens no file, or the one at `path`. -/
def OpensOnly (path : Path) (ev : Event) : Prop := ∀ p, ev = .opened p → p = path

namespace TftpSessionV4

variable {sys : System} {session : TftpSessionV4}

/-- The calls of a session, one after the other, open only its file. -/
abbrev Opens (session : TftpSessionV4) {α : Type} (x : SessionM α) : Prop :=
  LogsOnly IoState.log x (OpensOnly session.filePath)

theorem opens_of_quiet {α : Type} {x : SessionM α} (h : Quiet x) : Opens session x :=
  h.mono fun _ es hes => by simp [hes]

theorem opens_send (packet : TftpPacket) (target : AddressV4) :
    Opens session (send sys packet target) := by
  rw [Opens, send]
  refine (LogsOnly.liftExcept _).bind fun bits => ?_
  intro s
  rw [exec_bind_ok (exec_get s)]
  cases sys.sendto s.log ⟨target, bits⟩ with
  | none => exact ⟨_, rfl, by simp [OpensOnly]⟩
  | some e => exact ⟨_, rfl, by simp [OpensOnly]⟩

theorem opens_recv (o : RecvOutcome) : Opens session (recv o) := by
  intro s
  rw [exec_recv]
  exact ⟨_, rfl, by simp [OpensOnly]⟩

theorem opens_compositional (session : TftpSessionV4) :
    Compositional fun (α : Type) (x : SessionM α) => Opens session x :=
  LogsOnly.compositional _ _

theorem opens_awaitAck (number : UInt64) (o : RecvOutcome) :
    Opens session (awaitAck sys session number o) :=
  compositional_awaitAck (opens_compositional session) (fun _ => opens_send _) opens_recv session
    number o

theorem opens_dataLoop (reader : TftpReader) (n : ℕ) :
    Opens session (dataLoop sys session reader n) :=
  compositional_sendLoop (opens_compositional session) (opens_send _ _) (LogsOnly.pure _)
    (LogsOnly.throw _) n

theorem opens_startTransfer (options : OptionsType) :
    Opens session (startTransfer sys session options) := by
  refine (opens_of_quiet (quiet_timeout _ _)).bind fun _ => LogsOnly.bind ?_ fun reader =>
    opens_dataLoop reader maxRetries
  exact compositional_makeReader (opens_compositional session) _
    (fun s => ⟨_, rfl, by simp [OpensOnly]⟩) _ _ _

theorem opens_oackLoop (options : OptionsType) (oack : DictionaryType) (n : ℕ) :
    Opens session (oackLoop sys session options oack n) :=
  compositional_sendLoop (opens_compositional session) (opens_send _ _)
    (opens_startTransfer options) ((opens_send _ _).bind fun _ => LogsOnly.throw _) n

theorem opens_ioThread (sys : System) (session : TftpSessionV4) :
    Opens session (ioThread sys session) := by
  have hC := opens_compositional session
  have herror := fun payload => @opens_send sys session (TftpPacket.error payload)
  refine (opens_of_quiet quiet_make).bind fun _ =>
    (opens_of_quiet (quiet_timeout _ _)).bind fun _ =>
    LogsOnly.bind (compositional_validateRequest hC herror session) fun _ =>
      LogsOnly.bind (compositional_validateFilepath hC herror session _) fun _ =>
        (LogsOnly.liftExcept _).bind fun tsize => ?_
  cases session.request.options.entries.isEmpty
  · exact (LogsOnly.liftExcept _).bind fun a => opens_oackLoop a.1 a.2 maxRetries
  · exact opens_startTransfer _

/-- A step opens only the session's file. -/
theorem opens_resume (sys : System) (session : TftpSessionV4) (control : Control)
    (o : RecvOutcome) :
    Opens session (resume sys session control o) := by
  cases control with
  | oackSent n options oack =>
    exact (opens_awaitAck 0 o).observing.bind fun r =>
      compositional_onTimeout (opens_compositional session) r (opens_oackLoop options oack (n - 1))
        fun _ => opens_startTransfer options
  | dataSent n reader =>
    refine (opens_awaitAck reader.number o).observing.bind fun r =>
      compositional_onTimeout (opens_compositional session) r (opens_dataLoop reader (n - 1))
        fun _ => ?_
    cases reader.last
    · exact opens_dataLoop reader.next (maxRetries - 1)
    · exact LogsOnly.pure _
  | finished reader => exact LogsOnly.pure _
  | thrown e => exact LogsOnly.pure _

/-- **A run opens only the session's file.** -/
theorem run_opens (os : List RecvOutcome) :
    ∀ ev ∈ (run sys session os).io.log, OpensOnly session.filePath ev := by
  refine run_induction (P := fun s => ∀ ev ∈ s.io.log, OpensOnly session.filePath ev) ?_ ?_ os
  · obtain ⟨es, hlog, hes⟩ := opens_ioThread sys session ⟨[], 0, 0⟩
    rwa [start, settle, hlog, List.nil_append]
  · intro s o hs
    obtain ⟨es, hlog, hes⟩ := opens_resume sys session s.control o s.io
    rw [step, settle, hlog, List.forall_mem_append]
    exact ⟨hs, hes⟩

/-- **Confinement.** Whenever a session opens a file, for any base directory, any name, any system
and anything received, the file is in the base directory if and only if the name is `Confined`. -/
theorem opened_inside_iff (sys : System) (session : TftpSessionV4) (os : List RecvOutcome)
    {p : Path} (h : .opened p ∈ (run sys session os).io.log) :
    session.baseDir.Inside p ↔
      session.baseDir.Confined (Path.ofString session.request.filename) := by
  rw [run_opens os _ h p rfl, filePath, Path.inside_append_iff]

/-- A name that goes out of the base directory and back in again. -/
theorem opened_inside_iff_back_again :
    let session : TftpSessionV4 :=
      ⟨Path.ofString (lit "srv/tftp"), ⟨1, 1024⟩, ⟨lit "../tftp/a", lit "octet", ∅⟩⟩
    session.baseDir.Inside session.filePath ↔
      session.baseDir.Confined (Path.ofString session.request.filename) :=
  opened_inside_iff (.serving ⟨[65], by decide⟩) _ [] (by decide +kernel)

/-- A name that goes out of it and stays out. -/
theorem opened_outside :
    let session : TftpSessionV4 :=
      ⟨Path.ofString (lit "./"), ⟨1, 1024⟩, ⟨lit "../secret", lit "octet", ∅⟩⟩
    .opened session.filePath ∈ (run (.serving ⟨[65], by decide⟩) session []).io.log ∧
      ¬session.baseDir.Inside session.filePath := by
  decide +kernel

end TftpSessionV4

end Bootpd
