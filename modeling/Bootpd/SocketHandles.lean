import Bootpd.Lib.Handles
import Bootpd.SocketUdp
import Mathlib.Data.Finset.Card

/-!
# `socket_udp`: who closes which socket

A `socket_udp` owns a handle of the operating system, or `INVALID_SOCKET`. The constructors, the
move operations, `swap` and the destructor pass handles on; everything else only uses them.

The operations come in any order, on any objects, and each call of the system answers as it likes,
`WSAStartup`, `socket`, `bind` and `closesocket` alike. There is one exception: a new socket has a
handle that no open socket has. What the calls do with the handles is kept in `calls`. A `recv`, a
`send` or an `option` is there as a use of its handle; what it transfers or answers is not.

`closesocket` may fail. The program then writes a warning and forgets the handle, so that for the
program the socket is closed, and for the system it is not. `openSockets` are the sockets that the
program has not closed, and `refused` those that it has, and the system has not.

## Scope

`socket_udp` has no lock, and its operations are taken one after the other. `WSACleanup`, which is
called when the process ends, and the text of the warning are left out.

## Main definitions

* `SocketHandles.World`, `SocketHandles.step` — the objects, the open sockets and the calls so far
* `SocketHandles.Os` — what the calls of the system answer
* `SocketHandles.Sound` — who owns what, in every run

## Main results

* `SocketHandles.proper_of_run` — no socket is used or closed after it has been closed
* `SocketHandles.lost_of_run` — the sockets that stay open are those that could not be bound, and
  those that the system would not close
* `SocketHandles.closed_of_run` — where all could be bound, each is closed once
-/

namespace Bootpd

open Imperative Transition

namespace SocketHandles

/-- `int_socket_type`: `std::intptr_t`. -/
abbrev IntSocketType := Int64

/-- `INVALID_SOCKET`. -/
def v4SocketMakeInvalid : IntSocketType := -1

/-- An address in memory. -/
abbrev Location := ℕ

/-- What the operating system answers to one operation. -/
structure Os where
  wsaStartup : Int32
  socket : IntSocketType
  bind : Int32
  closesocket : Int32
  /-- `last_error_as_string()` -/
  lastErrorAsString : StdString
  /-- `address_v4::to_string()` -/
  toString : AddressV4 → StdString

/-- The sockets of the program, and its objects. -/
structure World where
  /-- `WSAStartup` has been called, and has not failed. -/
  initialized : Bool
  /-- The sockets that have been made, and not been closed. -/
  openSockets : Finset IntSocketType
  /-- The sockets that have been closed, and that `closesocket` has left open. -/
  refused : Finset IntSocketType
  calls : List (Handles.Event IntSocketType)
  /-- The `m_sock` of the objects. -/
  objects : Location → Option IntSocketType
  /-- An exception has left a destructor. -/
  terminated : Bool

abbrev SocketM := Imp World Exception

/-! ### The functions of `socket_api` -/

/-- `WSAStartup` is called until it has not failed once. -/
def v4Initialize (os : Os) : SocketM Unit := do
  let w ← get
  if w.initialized then pure ()
  else if os.wsaStartup ≠ 0 then
    throw (.runtimeError (lit "WSAStartup failed with code : " ++ os.lastErrorAsString))
  else set { w with initialized := true }

/-- `socket(AF_INET, SOCK_DGRAM, IPPROTO_UDP)` -/
def socket (os : Os) : SocketM IntSocketType := do
  if os.socket = v4SocketMakeInvalid then return v4SocketMakeInvalid
  modify fun w => { w with
    openSockets := insert os.socket w.openSockets, calls := w.calls ++ [.opened os.socket] }
  return os.socket

/-- A system call that only uses a socket. -/
def use (s : IntSocketType) : SocketM Unit :=
  modify fun w => { w with calls := w.calls ++ [.used s] }

def v4SocketMakeUdp (os : Os) : SocketM IntSocketType := do
  v4Initialize os
  let intSock ← socket os
  if intSock ≠ v4SocketMakeInvalid then return intSock
  throw (.runtimeError (lit "can't create socket, error code : " ++ os.lastErrorAsString))

/-- `v4_socket_bind`: the socket stays open where it throws. -/
def v4SocketBind (os : Os) (s : IntSocketType) (address : AddressV4) : SocketM Unit := do
  v4Initialize os
  use s
  if os.bind ≠ 0 then
    throw (.runtimeError (lit "failed to bind socket with address '" ++ os.toString address ++
      lit "', error code : " ++ os.lastErrorAsString))

/-- `v4_socket_make_udp(address)` -/
def v4SocketMakeUdpAt (os : Os) (address : AddressV4) : SocketM IntSocketType := do
  let intSock ← v4SocketMakeUdp os
  v4SocketBind os intSock address
  return intSock

/-- `v4_socket_close`. Where `closesocket` fails there is a warning on `std::cerr`, and the socket
stays open. -/
def v4SocketClose (os : Os) (s : IntSocketType) : SocketM Unit := do
  v4Initialize os
  modify fun w => { w with
    openSockets := w.openSockets.erase s, calls := w.calls ++ [.closed s] }
  if os.closesocket ≠ 0 then
    modify fun w => { w with refused := insert s w.refused }

/-! ### The members of `socket_udp` -/

/-- `m_sock` -/
def sock (o : Location) : SocketM IntSocketType := do
  let w ← get
  return (w.objects o).getD v4SocketMakeInvalid

def World.setSock (w : World) (o : Location) (s : Option IntSocketType) : World :=
  { w with objects := Function.update w.objects o s }

def setSock (o : Location) (s : Option IntSocketType) : SocketM Unit :=
  modify fun w => w.setSock o s

/-- `socket_udp(addr)` -/
def makeUdp (os : Os) (o : Location) (address : AddressV4) : SocketM Unit := do
  let s ← v4SocketMakeUdpAt os address
  setSock o (some s)

/-- `socket_udp(std::move(source))` -/
def moveConstruct (o source : Location) : SocketM Unit := do
  let s ← sock source
  setSock source (some v4SocketMakeInvalid)
  setSock o (some s)

/-- What `~socket_udp` does to `m_sock`. An exception that leaves it ends the program. -/
def destructor (os : Os) (s : IntSocketType) : SocketM Unit := do
  if s ≠ v4SocketMakeInvalid then
    match ← observing (v4SocketClose os s) with
    | .ok _ => pure ()
    | .error _ => modify fun w => { w with terminated := true }

/-- `operator =`. The `m_sock` of `tmp` is a local variable. -/
def assign (os : Os) (o source : Location) : SocketM Unit := do
  let tmp ← sock source
  setSock source (some v4SocketMakeInvalid)
  -- `tmp.swap(*this)`, and the destructor of `tmp`.
  let s ← sock o
  setSock o (some tmp)
  destructor os s

/-- `swap`: the objects exchange their `m_sock`. -/
def swap (o other : Location) : SocketM Unit := do
  let tmp ← sock other
  let s ← sock o
  setSock other (some s)
  setSock o (some tmp)

/-- `bind` -/
def bind (os : Os) (o : Location) (address : AddressV4) : SocketM Unit := do
  let s ← sock o
  v4SocketBind os s address

/-- `recv` and `send`, and `option`, which needs no `v4_initialize`. -/
def transfer (os : Os) (initializes : Bool) (o : Location) : SocketM Unit := do
  let s ← sock o
  if initializes then v4Initialize os
  use s

/-- `~socket_udp()` -/
def destroy (os : Os) (o : Location) : SocketM Unit := do
  let s ← sock o
  destructor os s
  setSock o none

/-! ### Runs -/

inductive Action where
  /-- `socket_udp()` -/
  | makeDefault (o : Location)
  | makeUdp (os : Os) (o : Location) (address : AddressV4)
  | moveConstruct (o source : Location)
  | assign (os : Os) (o source : Location)
  | swap (o other : Location)
  | bind (os : Os) (o : Location) (address : AddressV4)
  | transfer (os : Os) (initializes : Bool) (o : Location)
  | destroy (os : Os) (o : Location)

/-- The operation, on objects that are there; a constructor needs a place where there is none, and
the system does not give out the handle of a socket that it has open. -/
def operation (w : World) : Action → Option (SocketM Unit)
  | .makeDefault o =>
    if w.objects o = none then some (setSock o (some v4SocketMakeInvalid)) else none
  | .makeUdp os o address =>
    if w.objects o = none ∧ os.socket ∉ w.openSockets ∪ w.refused then
      some (makeUdp os o address)
    else none
  | .moveConstruct o source =>
    if w.objects o = none ∧ w.objects source ≠ none then some (moveConstruct o source) else none
  | .assign os o source =>
    if w.objects o ≠ none ∧ w.objects source ≠ none then some (assign os o source) else none
  | .swap o other =>
    if w.objects o ≠ none ∧ w.objects other ≠ none then some (swap o other) else none
  | .bind os o address => if w.objects o ≠ none then some (bind os o address) else none
  | .transfer os initializes o =>
    if w.objects o ≠ none then some (transfer os initializes o) else none
  | .destroy os o => if w.objects o ≠ none then some (destroy os o) else none

/-- An exception leaves the program running, unless it came out of a destructor. -/
def step (w : World) (a : Action) : Option World :=
  if w.terminated then none else (operation w a).map fun x => (exec x w).2

def start : World := ⟨false, ∅, ∅, [], fun _ => none, false⟩

/-! ### What the operations do -/

variable {os : Os} {w w' : World} {s : IntSocketType} {o p : Location}

/-- A `v4_initialize` that returns. -/
def Starts (os : Os) (w : World) : Prop := w.initialized = true ∨ os.wsaStartup = 0

instance (os : Os) (w : World) : Decidable (Starts os w) := inferInstanceAs (Decidable (_ ∨ _))

theorem exec_v4Initialize_of_starts (h : Starts os w) :
    exec (v4Initialize os) w = (.ok (), { w with initialized := true }) := by
  rw [v4Initialize, exec_bind, exec_get, andThen_ok]
  by_cases hw : w.initialized
  · rw [if_pos hw, ← hw]
    rfl
  · have hstartup := h.resolve_left hw
    rw [if_neg hw, if_neg (not_not_intro hstartup)]
    rfl

theorem exec_v4Initialize_of_not_starts (h : ¬Starts os w) : exec (v4Initialize os) w =
    (.error (.runtimeError (lit "WSAStartup failed with code : " ++ os.lastErrorAsString)), w) := by
  obtain ⟨hw, hstartup⟩ := not_or.mp h
  rw [v4Initialize, exec_bind, exec_get, andThen_ok, if_neg hw, if_pos hstartup]
  rfl

theorem exec_sock : exec (sock o) w = (.ok ((w.objects o).getD v4SocketMakeInvalid), w) := rfl

theorem exec_setSock (x : Option IntSocketType) :
    exec (setSock o x) w = (.ok (), w.setSock o x) := rfl

theorem World.objects_setSock (x : Option IntSocketType) :
    (w.setSock o x).objects = Function.update w.objects o x := rfl

/-- A socket is closed, if there is one. -/
def World.closing (w : World) (os : Os) (s : IntSocketType) : World :=
  if s = v4SocketMakeInvalid then w
  else { w with
    openSockets := w.openSockets.erase s
    calls := w.calls ++ [.closed s]
    refused := if os.closesocket ≠ 0 then insert s w.refused else w.refused }

theorem World.closing_setSock (x : Option IntSocketType) :
    (w.setSock o x).closing os s = (w.closing os s).setSock o x := by
  rw [closing, closing]
  split_ifs <;> rfl

theorem World.objects_closing : (w.closing os s).objects = w.objects := by
  rw [closing]
  split_ifs <;> rfl

theorem exec_v4SocketClose (hstarts : Starts os w) (hs : s ≠ v4SocketMakeInvalid) :
    exec (v4SocketClose os s) w = (.ok (), { w with initialized := true }.closing os s) := by
  rw [v4SocketClose, exec_bind, exec_v4Initialize_of_starts hstarts, andThen_ok, exec_bind,
    exec_modify, andThen_ok, World.closing, if_neg hs]
  split_ifs <;> rfl

/-- **The destructor does not throw**: where there is a socket, `v4_initialize` has returned
before. -/
theorem exec_destructor (h : s ≠ v4SocketMakeInvalid → w.initialized = true) :
    exec (destructor os s) w = (.ok (), w.closing os s) := by
  rw [destructor]
  by_cases hs : s = v4SocketMakeInvalid
  · rw [if_neg (not_not_intro hs), World.closing, if_pos hs]
    rfl
  · rw [if_pos hs, exec_bind, exec_observing, andThen_ok,
      exec_v4SocketClose (.inl (h hs)) hs, ← h hs]
    rfl

/-- A socket is made. -/
theorem exec_v4SocketMakeUdp (hstarts : Starts os w) (hs : os.socket ≠ v4SocketMakeInvalid) :
    exec (v4SocketMakeUdp os) w = (.ok os.socket, { w with
      initialized := true
      openSockets := insert os.socket w.openSockets
      calls := w.calls ++ [.opened os.socket] }) := by
  rw [v4SocketMakeUdp, exec_bind, exec_v4Initialize_of_starts hstarts, andThen_ok, exec_bind,
    socket, if_neg hs]
  rw [exec_bind, exec_modify, andThen_ok, exec_pure, andThen_ok, if_pos hs]
  rfl

theorem exec_v4SocketBind (hstarts : Starts os w) (address : AddressV4) :
    exec (v4SocketBind os s address) w =
      (if os.bind ≠ 0 then .error (.runtimeError (lit "failed to bind socket with address '" ++
        os.toString address ++ lit "', error code : " ++ os.lastErrorAsString)) else .ok (),
      { w with initialized := true, calls := w.calls ++ [.used s] }) := by
  rw [v4SocketBind, exec_bind, exec_v4Initialize_of_starts hstarts, andThen_ok, exec_bind, use,
    exec_modify, andThen_ok]
  split_ifs <;> rfl

/-! ### The invariant -/

/-- What every run keeps, when `n` sockets have been lost and `m` have not been closed by
`closesocket`. -/
structure Sound (w : World) (n m : ℕ) : Prop where
  running : w.terminated = false
  initialized : ∀ s ∈ w.openSockets, w.initialized = true
  proper : run (Handles.step v4SocketMakeInvalid) ∅ w.calls = some w.openSockets
  accounted : ∃ lost : Finset IntSocketType, lost.card = n ∧
    Handles.Accounted v4SocketMakeInvalid w.objects w.openSockets lost
  disjoint : Disjoint w.openSockets w.refused
  refusals : w.refused.card = m

variable {n m : ℕ}

theorem sound_start : Sound start 0 0 :=
  ⟨rfl, fun _ hs => absurd hs (Finset.notMem_empty _), rfl, ⟨∅, rfl, Handles.accounted_empty⟩,
    Finset.disjoint_empty_right _, rfl⟩

/-- The `m_sock` of an object. -/
theorem Sound.mem_of_object (h : Sound w n m) (ho : w.objects o = some s) :
    s = v4SocketMakeInvalid ∨ s ∈ w.openSockets := by
  obtain ⟨lost, -, haccounted⟩ := h.accounted
  by_cases hs : s = v4SocketMakeInvalid
  · exact .inl hs
  · exact .inr (haccounted.mem_of_owns ⟨ho, hs⟩)

theorem Sound.initialized_of_object (h : Sound w n m) (ho : w.objects o = some s)
    (hs : s ≠ v4SocketMakeInvalid) : w.initialized = true :=
  h.initialized s ((h.mem_of_object ho).resolve_left hs)

theorem Sound.initialize (h : Sound w n m) : Sound { w with initialized := true } n m :=
  { h with initialized := fun _ _ => rfl }

theorem Sound.use (h : Sound w n m) (hs : s = v4SocketMakeInvalid ∨ s ∈ w.openSockets) :
    Sound { w with calls := w.calls ++ [.used s] } n m :=
  { h with proper := Handles.run_concat h.proper (Handles.step_used hs) }

/-- The objects pass their handles on. -/
theorem Sound.pass (h : Sound w n m) {objects : Location → Option IntSocketType}
    (hobjects : ∀ lost, Handles.Accounted v4SocketMakeInvalid w.objects w.openSockets lost →
      Handles.Accounted v4SocketMakeInvalid objects w.openSockets lost) :
    Sound { w with objects } n m := by
  obtain ⟨lost, hlost, haccounted⟩ := h.accounted
  exact { h with accounted := ⟨lost, hlost, hobjects lost haccounted⟩ }

/-- How many sockets stay open when `s` is closed. -/
def refusalOf (os : Os) (s : Option IntSocketType) : ℕ :=
  if s.getD v4SocketMakeInvalid ≠ v4SocketMakeInvalid ∧ os.closesocket ≠ 0 then 1 else 0

/-- An object closes its socket. -/
theorem Sound.closing (h : Sound w n m) (ho : w.objects o = some s) {x : Option IntSocketType}
    (hx : x = none ∨ x = some v4SocketMakeInvalid) :
    Sound ((w.closing os s).setSock o x) n (m + refusalOf os (some s)) := by
  obtain ⟨lost, hlost, haccounted⟩ := h.accounted
  rw [World.closing, refusalOf, Option.getD_some]
  by_cases hs : s = v4SocketMakeInvalid
  · rw [if_pos hs, if_neg fun hrefused => hrefused.1 hs]
    refine h.pass fun lost haccounted => haccounted.replace ?_ hx
    rintro k ⟨hk, hne⟩
    exact hne ((Option.some.inj (hk.symm.trans ho)).trans hs)
  · have hmem := (h.mem_of_object ho).resolve_left hs
    have hnew : s ∉ w.refused := Finset.disjoint_left.mp h.disjoint hmem
    have herase : Disjoint (w.openSockets.erase s) w.refused :=
      Finset.disjoint_of_subset_left (Finset.erase_subset s _) h.disjoint
    rw [if_neg hs]
    refine ⟨h.running, fun k hk => h.initialized k (Finset.mem_of_mem_erase hk),
      Handles.run_concat h.proper (Handles.step_closed hmem), ⟨lost, hlost,
      haccounted.close ⟨ho, hs⟩ hx⟩, ?_, ?_⟩
    · show Disjoint _ (ite ..)
      split_ifs
      · exact Finset.disjoint_insert_right.mpr ⟨Finset.notMem_erase s _, herase⟩
      · exact herase
    · show Finset.card (ite ..) = _
      by_cases hclose : os.closesocket = 0
      · rw [if_neg (not_not_intro hclose), if_neg fun hrefused => hrefused.2 hclose, h.refusals,
          add_zero]
      · rw [if_pos hclose, if_pos ⟨hs, hclose⟩, Finset.card_insert_of_notMem hnew, h.refusals]

/-- An object that holds nothing. -/
theorem not_owns (ho : w.objects o = none ∨ w.objects o = some v4SocketMakeInvalid)
    (k : IntSocketType) : ¬Handles.Owns v4SocketMakeInvalid w.objects o k := by
  rintro ⟨hk, hne⟩
  rcases ho with ho | ho
  · cases ho.symm.trans hk
  · exact hne (Option.some.inj (hk.symm.trans ho))

/-! ### One step -/

/-- How many sockets an operation loses: one, where a constructor throws when it has made it. -/
def loss (w : World) : Action → ℕ
  | .makeUdp os _ _ =>
    if Starts os w ∧ os.socket ≠ v4SocketMakeInvalid ∧ os.bind ≠ 0 then 1 else 0
  | _ => 0

/-- How many sockets an operation closes that stay open all the same. An object that is assigned to
itself keeps its own. -/
def refusal (w : World) : Action → ℕ
  | .assign os o source => if o = source then 0 else refusalOf os (w.objects o)
  | .destroy os o => refusalOf os (w.objects o)
  | _ => 0

theorem Sound.makeUdp (h : Sound w n m) {address : AddressV4} (ho : w.objects o = none)
    (hnew : os.socket ∉ w.openSockets ∪ w.refused) :
    Sound (exec (makeUdp os o address) w).2 (n + loss w (.makeUdp os o address)) m := by
  obtain ⟨hfresh, hrefused⟩ := Finset.notMem_union.mp hnew
  rw [SocketHandles.makeUdp, v4SocketMakeUdpAt, loss]
  by_cases hstarts : Starts os w
  · by_cases hs : os.socket = v4SocketMakeInvalid
    · -- There is no socket.
      have hmake : exec (v4SocketMakeUdp os) w = (.error (.runtimeError
          (lit "can't create socket, error code : " ++ os.lastErrorAsString)),
            { w with initialized := true }) := by
        rw [v4SocketMakeUdp, exec_bind, exec_v4Initialize_of_starts hstarts, andThen_ok, socket,
          if_pos hs]
        rfl
      rw [exec_bind, exec_bind, hmake, if_neg fun hlost => hlost.2.1 hs]
      exact h.initialize
    · obtain ⟨lost, hlost, haccounted⟩ := h.accounted
      have hproper := Handles.run_concat
        (Handles.run_concat h.proper (Handles.step_opened hs hfresh))
        (Handles.step_used (.inr (Finset.mem_insert_self ..)))
      have hdisjoint : Disjoint (insert os.socket w.openSockets) w.refused :=
        Finset.disjoint_insert_left.mpr ⟨hrefused, h.disjoint⟩
      rw [exec_bind, exec_bind, exec_v4SocketMakeUdp hstarts hs, andThen_ok, exec_bind,
        exec_v4SocketBind (.inl rfl)]
      by_cases hbind : os.bind = 0
      · rw [if_neg (not_not_intro hbind), if_neg fun hlost => hlost.2.2 hbind]
        exact ⟨h.running, fun _ _ => rfl, hproper,
          ⟨lost, hlost, haccounted.gain (not_owns (.inl ho)) hs hfresh⟩, hdisjoint, h.refusals⟩
      · rw [if_pos hbind, if_pos ⟨hstarts, hs, hbind⟩]
        have hnotLost : os.socket ∉ lost := fun hmem =>
          hfresh ((haccounted.mem_iff _).mpr (.inl hmem))
        refine ⟨h.running, fun _ _ => rfl, hproper,
          ⟨insert os.socket lost, ?_, haccounted.lose hfresh⟩, hdisjoint, h.refusals⟩
        rw [Finset.card_insert_of_notMem hnotLost, hlost]
  · have hmake : exec (v4SocketMakeUdp os) w = (.error (.runtimeError
        (lit "WSAStartup failed with code : " ++ os.lastErrorAsString)), w) := by
      rw [v4SocketMakeUdp, exec_bind, exec_v4Initialize_of_not_starts hstarts]
      rfl
    rw [exec_bind, exec_bind, hmake, if_neg fun hlost => hstarts hlost.1]
    exact h

theorem Sound.moveConstruct (h : Sound w n m) (ho : w.objects o = none)
    (hp : w.objects p = some s) : Sound (exec (moveConstruct o p) w).2 n m := by
  have hne : p ≠ o := by
    rintro rfl
    cases ho.symm.trans hp
  have hw : (exec (SocketHandles.moveConstruct o p) w).2 =
      (w.setSock p (some v4SocketMakeInvalid)).setSock o (some s) := by
    rw [SocketHandles.moveConstruct, exec_bind, exec_sock, andThen_ok, hp]
    rfl
  rw [hw]
  refine h.pass fun lost haccounted => ?_
  -- It swaps with an empty object that has just been made.
  have hswap := (haccounted.replace (not_owns (.inl ho)) (.inr rfl)).swap (o := o) (p := p)
  rwa [Function.update_self, Function.update_of_ne hne, hp, Function.update_idem,
    Function.update_comm hne.symm] at hswap

theorem Sound.assign (h : Sound w n m) {k : IntSocketType} (ho : w.objects o = some k)
    (hp : w.objects p = some s) :
    Sound (exec (assign os o p) w).2 n (m + refusal w (.assign os o p)) := by
  rw [SocketHandles.assign, exec_bind, exec_sock, andThen_ok, hp, exec_bind, exec_setSock,
    andThen_ok, exec_bind, exec_sock, andThen_ok, exec_bind, exec_setSock, andThen_ok,
    World.objects_setSock, Option.getD_some, refusal]
  by_cases hne : p = o
  · -- `tmp` gives the handle back.
    subst hne
    rw [Function.update_self, Option.getD_some, exec_destructor fun hs => absurd rfl hs,
      World.closing, if_pos rfl, if_pos rfl]
    refine h.pass fun lost haccounted => ?_
    rw [World.objects_setSock, Function.update_idem, ← hp, Function.update_eq_self]
    exact haccounted
  · rw [if_neg (Ne.symm hne), Function.update_of_ne (Ne.symm hne), ho, Option.getD_some,
      exec_destructor (w := (w.setSock p _).setSock o _) fun hk => h.initialized_of_object ho hk,
      World.closing_setSock, World.closing_setSock]
    -- It closes its own socket, and swaps.
    refine (h.closing ho (.inr rfl)).pass fun lost haccounted => ?_
    have hswap := haccounted.swap (o := o) (p := p)
    rw [World.objects_setSock, World.objects_closing] at hswap
    rw [World.objects_setSock, World.objects_closing]
    rwa [Function.update_self, Function.update_of_ne hne, hp, Function.update_idem,
      Function.update_comm (Ne.symm hne)] at hswap

theorem Sound.swap (h : Sound w n m) {k : IntSocketType} (ho : w.objects o = some k)
    (hp : w.objects p = some s) : Sound (exec (swap o p) w).2 n m := by
  have hw : (exec (SocketHandles.swap o p) w).2 = (w.setSock p (some k)).setSock o (some s) := by
    rw [SocketHandles.swap, exec_bind, exec_sock, andThen_ok, exec_bind, exec_sock, andThen_ok, hp,
      ho]
    rfl
  rw [hw]
  refine h.pass fun lost haccounted => ?_
  rw [World.objects_setSock, ← ho, ← hp]
  exact haccounted.swap

theorem Sound.bind (h : Sound w n m) {address : AddressV4} (ho : w.objects o = some s) :
    Sound (exec (bind os o address) w).2 n m := by
  rw [SocketHandles.bind, exec_bind, exec_sock, andThen_ok, ho, Option.getD_some]
  by_cases hstarts : Starts os w
  · rw [exec_v4SocketBind hstarts]
    exact h.initialize.use (h.mem_of_object ho)
  · rw [v4SocketBind, exec_bind, exec_v4Initialize_of_not_starts hstarts]
    exact h

theorem Sound.transfer (h : Sound w n m) {initializes : Bool} (ho : w.objects o = some s) :
    Sound (exec (transfer os initializes o) w).2 n m := by
  rw [SocketHandles.transfer, exec_bind, exec_sock, andThen_ok, ho, Option.getD_some]
  cases initializes with
  | false => exact h.use (h.mem_of_object ho)
  | true =>
    rw [if_pos rfl]
    by_cases hstarts : Starts os w
    · rw [exec_bind, exec_v4Initialize_of_starts hstarts]
      exact h.initialize.use (h.mem_of_object ho)
    · rw [exec_bind, exec_v4Initialize_of_not_starts hstarts]
      exact h

theorem Sound.destroy (h : Sound w n m) (ho : w.objects o = some s) :
    Sound (exec (destroy os o) w).2 n (m + refusal w (.destroy os o)) := by
  rw [refusal, SocketHandles.destroy, exec_bind, exec_sock, andThen_ok, ho, Option.getD_some,
    exec_bind, exec_destructor fun hs => h.initialized_of_object ho hs, andThen_ok]
  exact h.closing ho (.inl rfl)

/-- **One operation** keeps the invariant, and adds up what is lost and what stays open. -/
theorem Sound.step {a : Action} (h : Sound w n m) (hstep : step w a = some w') :
    Sound w' (n + loss w a) (m + refusal w a) := by
  rw [SocketHandles.step, h.running, if_neg Bool.false_ne_true] at hstep
  obtain ⟨x, hx, rfl⟩ := Option.map_eq_some_iff.mp hstep
  have hsome {o : Location} (ho : w.objects o ≠ none) : ∃ s, w.objects o = some s :=
    Option.ne_none_iff_exists'.mp ho
  cases a with
  | makeDefault o =>
    obtain ⟨ho, hx⟩ := Option.ite_none_right_eq_some.mp hx
    obtain rfl := Option.some.inj hx
    exact h.pass fun lost haccounted => haccounted.replace (not_owns (.inl ho)) (.inr rfl)
  | makeUdp os o address =>
    obtain ⟨⟨ho, hfresh⟩, hx⟩ := Option.ite_none_right_eq_some.mp hx
    obtain rfl := Option.some.inj hx
    exact h.makeUdp ho hfresh
  | moveConstruct o source =>
    obtain ⟨⟨ho, hsource⟩, hx⟩ := Option.ite_none_right_eq_some.mp hx
    obtain rfl := Option.some.inj hx
    obtain ⟨s, hs⟩ := hsome hsource
    exact h.moveConstruct ho hs
  | assign os o source =>
    obtain ⟨⟨ho, hsource⟩, hx⟩ := Option.ite_none_right_eq_some.mp hx
    obtain rfl := Option.some.inj hx
    obtain ⟨k, hk⟩ := hsome ho
    obtain ⟨s, hs⟩ := hsome hsource
    exact h.assign hk hs
  | swap o other =>
    obtain ⟨⟨ho, hother⟩, hx⟩ := Option.ite_none_right_eq_some.mp hx
    obtain rfl := Option.some.inj hx
    obtain ⟨k, hk⟩ := hsome ho
    obtain ⟨s, hs⟩ := hsome hother
    exact h.swap hk hs
  | bind os o address =>
    obtain ⟨ho, hx⟩ := Option.ite_none_right_eq_some.mp hx
    obtain rfl := Option.some.inj hx
    obtain ⟨s, hs⟩ := hsome ho
    exact h.bind hs
  | transfer os initializes o =>
    obtain ⟨ho, hx⟩ := Option.ite_none_right_eq_some.mp hx
    obtain rfl := Option.some.inj hx
    obtain ⟨s, hs⟩ := hsome ho
    exact h.transfer hs
  | destroy os o =>
    obtain ⟨ho, hx⟩ := Option.ite_none_right_eq_some.mp hx
    obtain rfl := Option.some.inj hx
    obtain ⟨s, hs⟩ := hsome ho
    exact h.destroy hs

theorem sound_of_run {as : List Action} (hrun : run step start as = some w) :
    Sound w (total step loss start as) (total step refusal start as) := by
  have hstep (w : World) (a : Action) (w' : World) (n : ℕ × ℕ) (h : Sound w n.1 n.2)
      (hstep : step w a = some w') : Sound w' (n + (loss w a, refusal w a)).1
        (n + (loss w a, refusal w a)).2 := h.step hstep
  have h := total_of_run (I := fun w (n : ℕ × ℕ) => Sound w n.1 n.2) (n := 0) hstep sound_start hrun
  rwa [zero_add, total_prodMk] at h

/-! ### Whole runs -/

/-- **No socket is used after it has been closed, or closed twice**: in every run the calls are in
order, and no destructor throws. No two objects ever hold one socket. -/
theorem proper_of_run {as : List Action} (hrun : run step start as = some w) :
    run (Handles.step v4SocketMakeInvalid) ∅ w.calls = some w.openSockets ∧
      w.terminated = false ∧ ∀ o p s, w.objects o = some s → w.objects p = some s →
        s ≠ v4SocketMakeInvalid → o = p ∧ s ∈ w.openSockets := by
  have h := sound_of_run hrun
  obtain ⟨lost, -, haccounted⟩ := h.accounted
  refine ⟨h.proper, h.running, fun o p s ho hp hs => ?_⟩
  exact ⟨haccounted.exclusive o p s ⟨ho, hs⟩ ⟨hp, hs⟩, haccounted.mem_of_owns ⟨ho, hs⟩⟩

/-- An operating system that makes the socket `s`, and binds it or does not. -/
def sampleOs (s : IntSocketType) (bind : Int32) : Os :=
  ⟨0, s, bind, 0, lit "WSAEADDRINUSE", fun _ => lit "0.0.0.0:69"⟩

/-- A server starts, and a second one at the same address does not. -/
def startTwice : List Action :=
  [.makeDefault 0, .makeUdp (sampleOs 5 0) 1 ⟨0, 69⟩, .assign (sampleOs 6 0) 0 1,
    .destroy (sampleOs 6 0) 1, .transfer (sampleOs 6 0) true 0,
    .makeUdp (sampleOs 6 (-1)) 1 ⟨0, 69⟩]

theorem proper_startTwice : ∃ w, run step start startTwice = some w ∧ w.objects 0 = some 5 ∧
    (run (Handles.step v4SocketMakeInvalid) ∅ w.calls = some w.openSockets ∧
      w.terminated = false ∧ ∀ o p s, w.objects o = some s → w.objects p = some s →
        s ≠ v4SocketMakeInvalid → o = p ∧ s ∈ w.openSockets) :=
  ⟨_, rfl, rfl, proper_of_run (show run step start startTwice = some _ from rfl)⟩

/-- **The sockets that stay open** in the system and are not held by an object: they are as many as
there were constructors that could not bind theirs, and those that `closesocket` has not closed. -/
theorem lost_of_run {as : List Action} (hrun : run step start as = some w) :
    ∃ lost : Finset IntSocketType, lost.card = total step loss start as ∧
      w.refused.card = total step refusal start as ∧ Disjoint lost w.refused ∧
      ∀ s, s ∈ w.openSockets ∪ w.refused ↔
        s ∈ lost ∪ w.refused ∧ (∀ o, ¬Handles.Owns v4SocketMakeInvalid w.objects o s) ∨
          ∃ o, Handles.Owns v4SocketMakeInvalid w.objects o s := by
  have h := sound_of_run hrun
  obtain ⟨lost, hlost, haccounted⟩ := h.accounted
  have hsubset : lost ⊆ w.openSockets := fun s hs => (haccounted.mem_iff s).mpr (.inl hs)
  refine ⟨lost, hlost, h.refusals, Finset.disjoint_of_subset_left hsubset h.disjoint, fun s => ?_⟩
  have hnobody (hs : s ∈ lost ∪ w.refused) (o : Location) :
      ¬Handles.Owns v4SocketMakeInvalid w.objects o s := fun ho => by
    rcases Finset.mem_union.mp hs with hs | hs
    · exact haccounted.notLost o s ho hs
    · exact Finset.disjoint_left.mp h.disjoint (haccounted.mem_of_owns ho) hs
  rw [and_iff_left_of_imp hnobody, Finset.mem_union, haccounted.mem_iff, Finset.mem_union,
    or_right_comm]

/-- A third server starts, and `closesocket` fails for the first. -/
def stayOpen : List Action :=
  startTwice ++ [.makeUdp (sampleOs 7 0) 2 ⟨0, 69⟩,
    .destroy { sampleOs 6 0 with closesocket := -1 } 0]

/-- The socket that could not be bound, and the one that could not be closed. -/
theorem lost_stayOpen : ∃ w, run step start stayOpen = some w ∧
    total step loss start stayOpen = 1 ∧ total step refusal start stayOpen = 1 ∧
    ∃ lost : Finset IntSocketType, lost.card = total step loss start stayOpen ∧
      w.refused.card = total step refusal start stayOpen ∧ Disjoint lost w.refused ∧
      ∀ s, s ∈ w.openSockets ∪ w.refused ↔
        s ∈ lost ∪ w.refused ∧ (∀ o, ¬Handles.Owns v4SocketMakeInvalid w.objects o s) ∨
          ∃ o, Handles.Owns v4SocketMakeInvalid w.objects o s :=
  ⟨_, rfl, rfl, rfl, lost_of_run (show run step start stayOpen = some _ from rfl)⟩

/-- **Closed once**: when the objects are gone and none of the constructors lost its socket, every
socket has been closed as often as it was made. -/
theorem closed_of_run {as : List Action} (hrun : run step start as = some w)
    (hgone : ∀ o, w.objects o = none) (hloss : total step loss start as = 0)
    (s : IntSocketType) : w.calls.count (.opened s) = w.calls.count (.closed s) := by
  have h := sound_of_run hrun
  obtain ⟨lost, hlost, haccounted⟩ := h.accounted
  have hs : s ∉ w.openSockets := by
    rw [haccounted.mem_iff, Finset.card_eq_zero.mp (hlost.trans hloss)]
    rintro (hs | ⟨o, ho, -⟩)
    · exact absurd hs (Finset.notMem_empty s)
    · cases (hgone o).symm.trans ho
  have hcount := Handles.count_opened s h.proper
  simpa [hs] using hcount

/-- A server that starts and ends. -/
theorem closed_server : ∃ w, run step start (startTwice.take 5 ++ [.destroy (sampleOs 6 0) 0]) =
      some w ∧ w.calls.count (.opened 5) = 1 ∧
        w.calls.count (.opened 5) = w.calls.count (.closed 5) := by
  refine ⟨_, rfl, rfl, closed_of_run
    (show run step start (startTwice.take 5 ++ [.destroy (sampleOs 6 0) 0]) = some _ from rfl)
    (fun o => ?_) rfl 5⟩
  match o with
  | 0 => rfl
  | 1 => rfl
  | _ + 2 => rfl

end SocketHandles

end Bootpd
