import Egress.Network.Socket

/-!
The network as the process sees it: peers that can be connected to, the sockets created so far, and
the open descriptors, each of which refers to a socket. Several descriptors may refer to one socket;
they share its state and its non-blocking flag.
-/

namespace Egress

abbrev Descriptor := Int

/-- Kinds of calls that always fail, with their error number. -/
structure Faults where
  socket : Option Nat := none
  getFlag : Option Nat := none
  setFlag : Option Nat := none
  duplicate : Option Nat := none
deriving DecidableEq, Repr

namespace Network

theorem place_lt_of_unused :
    ∀ p ∈ ([] : List (Descriptor × Nat)), p.2 < ([] : List Socket).length := nofun

theorem number_nonneg_of_unused : ∀ p ∈ ([] : List (Descriptor × Nat)), 0 ≤ p.1 := nofun

theorem number_lt_of_unused :
    ∀ p ∈ ([] : List (Descriptor × Nat)), p.1 < 1000 + ([] : List Socket).length := nofun

end Network

/-- Without further proof a network is one that was not used yet. -/
structure Network where
  peers : List Peer := []
  faults : Faults := {}
  /-- All sockets ever created, in the order of their creation. -/
  sockets : List Socket := []
  /-- The open descriptors, each with the place of its socket in `sockets`. -/
  descriptors : List (Descriptor × Nat) := []
  place_lt : ∀ p ∈ descriptors, p.2 < sockets.length := by exact Egress.Network.place_lt_of_unused
  number_nonneg : ∀ p ∈ descriptors, 0 ≤ p.1 := by exact Egress.Network.number_nonneg_of_unused
  /-- Sockets get the numbers from 1000 on, so an open number was given out before. -/
  number_lt : ∀ p ∈ descriptors, p.1 < 1000 + sockets.length := by
    exact Egress.Network.number_lt_of_unused
deriving DecidableEq, Repr

namespace Network

def socketOf? (n : Network) (fd : Descriptor) : Option Nat := n.descriptors.lookup fd

theorem place_lt_of_socketOf? (n : Network) {fd : Descriptor} {index : Nat}
    (h : n.socketOf? fd = some index) : index < n.sockets.length := by
  obtain ⟨before, after, hd, -⟩ := List.lookup_eq_some_iff.1 h
  exact n.place_lt (fd, index) (by simp [hd])

def socketAt? (n : Network) (fd : Descriptor) : Option Socket := do
  n.sockets[← n.socketOf? fd]?

def references (n : Network) (index : Nat) : Nat := n.descriptors.countP (·.2 == index)

/-- Adds a socket under a descriptor of its own. Numbers are never used twice. -/
def add (n : Network) (s : Socket) : Descriptor × Network :=
  let fd : Descriptor := 1000 + n.sockets.length
  (fd, { n with
    sockets := n.sockets ++ [s]
    descriptors := n.descriptors ++ [(fd, n.sockets.length)]
    place_lt := by
      have := n.place_lt
      grind
    number_nonneg := by
      have := n.number_nonneg
      grind
    number_lt := by
      have := n.number_lt
      grind })

def close (n : Network) (fd : Descriptor) : Network :=
  { n with
    descriptors := n.descriptors.filter (·.1 != fd)
    place_lt := fun p h => n.place_lt p (List.mem_filter.1 h).1
    number_nonneg := fun p h => n.number_nonneg p (List.mem_filter.1 h).1
    number_lt := fun p h => n.number_lt p (List.mem_filter.1 h).1 }

def setSocket (n : Network) (index : Nat) (s : Socket) : Network :=
  { n with
    sockets := n.sockets.set index s
    place_lt := by simpa using n.place_lt
    number_nonneg := n.number_nonneg
    number_lt := by simpa using n.number_lt }

/-- Lets an operation act on the socket of a descriptor. -/
def onSocket {α : Type} (n : Network) (fd : Descriptor)
    (act : Socket → Except RouteError α × Socket) : Except RouteError α × Network :=
  match n.socketOf? fd with
  | none => (.error (.ofErrno Errno.badDescriptor), n)
  | some index =>
      match n.sockets[index]? with
      | none => (.error (.ofErrno Errno.badDescriptor), n)
      | some s =>
          let result := act s
          (result.1, n.setSocket index result.2)

def isStream (n : Network) (fd : Descriptor) : Bool :=
  (n.socketAt? fd).any (·.kind == .stream)

def isNonblocking (n : Network) (fd : Descriptor) : Except OsError Bool :=
  match n.faults.getFlag with
  | some errno => .error (.numbered errno)
  | none =>
      match n.socketAt? fd with
      | some s => .ok s.nonblocking
      | none => .error (.numbered Errno.badDescriptor)

/-- Writes the non-blocking flag, unless it already is as wanted. -/
def setNonblocking (n : Network) (fd : Descriptor) (enabled : Bool) :
    Except OsError Unit × Network :=
  match n.isNonblocking fd with
  | .error e => (.error e, n)
  | .ok flag =>
      if flag = enabled then (.ok (), n)
      else
        match n.faults.setFlag with
        | some errno => (.error (.numbered errno), n)
        | none =>
            (.ok (), (n.onSocket fd fun s => (.ok (), { s with nonblocking := enabled })).2)

/-- Makes `target` refer to the socket of `source`. Numbers that were never given out lie beyond
the limit on open descriptors. -/
def duplicate (n : Network) (source target : Descriptor) : Except OsError Unit × Network :=
  match n.faults.duplicate with
  | some errno => (.error (.numbered errno), n)
  | none =>
      match hs : n.socketOf? source with
      | none => (.error (.numbered Errno.badDescriptor), n)
      | some index =>
          if ht : 0 ≤ target ∧ target < 1000 + n.sockets.length then
            (.ok (), { n with
              descriptors := n.descriptors.filter (·.1 != target) ++ [(target, index)]
              place_lt := by
                have := n.place_lt_of_socketOf? hs
                have := n.place_lt
                grind
              number_nonneg := by
                have := n.number_nonneg
                grind
              number_lt := by
                have := n.number_lt
                grind })
          else (.error (.numbered Errno.badDescriptor), n)

def openStream (n : Network) : Except OsError Descriptor × Network :=
  match n.faults.socket with
  | some errno => (.error (.numbered errno), n)
  | none =>
      let (fd, n) := n.add {}
      match n.setNonblocking fd true with
      | (.ok (), n) => (.ok fd, n)
      | (.error e, n) => (.error e, n.close fd)

/-- Hands a descriptor over in blocking mode. It is closed if that fails. -/
def handOver (n : Network) (fd : Descriptor) : Except OsError Descriptor × Network :=
  match n.setNonblocking fd false with
  | (.ok (), n) => (.ok fd, n)
  | (.error e, n) => (.error e, n.close fd)

/-- Makes `held` refer to the connection of `replacement`, which is closed. The non-blocking flag of
`held` is carried over; the answer is that flag. -/
def replace (n : Network) (held replacement : Descriptor) : Except OsError Bool × Network :=
  match n.isNonblocking held with
  | .error e => (.error e, n.close replacement)
  | .ok flag =>
      match n.duplicate replacement held with
      | (.error e, n) => (.error e, n.close replacement)
      | (.ok (), n) =>
          let n := n.close replacement
          if flag then
            match n.setNonblocking held true with
            | (.ok (), n) => (.ok true, n)
            | (.error e, n) => (.error e, n)
          else (.ok false, n)

/-- Opens a socket and connects it. The socket is closed if that fails. -/
def dial (n : Network) (ceiling : Nat) (target : SocketAddr) :
    Except RouteError Descriptor × Network :=
  match n.openStream with
  | (.error e, n) => (.error (.ofOs e), n)
  | (.ok fd, n) =>
      match n.onSocket fd (·.connect n.peers ceiling target) with
      | (.ok (), n) => (.ok fd, n)
      | (.error e, n) => (.error e, n.close fd)

end Network

end Egress
