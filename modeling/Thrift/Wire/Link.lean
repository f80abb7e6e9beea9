-- One end of a wire in memory: bytes that came in and are not read yet, bytes written and not
-- sent yet, and the frames that were sent.
import Thrift.Wire.Message

namespace Thrift

structure Link where
  unread : Bytes
  unsent : Bytes
  frames : List Bytes
deriving Inhabited

namespace Link

/-- An end where nothing has happened. -/
def empty : Link := ⟨[], [], []⟩

def ofInput (input : Bytes) : Link := { empty with unread := input }

/-- Adds bytes to the unread ones. -/
def feed (l : Link) (bytes : Bytes) : Link := { l with unread := l.unread ++ bytes }

/-- Sends what was written as one frame. An empty frame is not sent. -/
def flush (l : Link) : Link :=
  if l.unsent.isEmpty then l else { l with unsent := [], frames := l.frames ++ [l.unsent] }

def takeFrames (l : Link) : List Bytes × Link := (l.frames, { l with frames := [] })

/-- Reads from the unread bytes. -/
def read {α : Type} (l : Link) (r : Reading α) : Except Fault α × Link :=
  match r.run l.unread with
  | .ok a unread => (.ok a, { l with unread })
  | .error fault unread => (.error fault, { l with unread })

/-- Writes behind the unsent bytes. -/
def write {α : Type} (l : Link) (w : Writing α) : Except Fault α × Link :=
  (w.outcome, { l with unsent := l.unsent ++ w.bytes })

end Link

end Thrift
