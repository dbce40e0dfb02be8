import StyleBuild.World

/-!
# Output locks

Each output `foo.css` is guarded by a lock file `foo.css.lock`. To hold the
lock is to hold that file, so a lock file that was removed and made again is
another one. An attempt never waits. The lock file stays when the lock goes.
-/

namespace StyleBuild

/-- The lock file of an output. -/
def lockPath (output : Path) : Path := output.withSuffix ".lock"

inductive LockAttempt where
  | acquired (lock : Nat)
  | heldByOther
  deriving DecidableEq, Repr

namespace World

/-- Tries to lock an output. The lock file is made when it is missing. -/
def tryLock (w : World) (output : Path) : World × Except Error LockAttempt :=
  match w.files.openForWriting w.now (lockPath output) with
  | .error fault => (w, .error (.lock fault))
  | .ok (files, l) =>
    let w := { w with files }
    match files.nodeAt? l with
    | some (.file file) =>
      if w.held.contains file.id then (w, .ok .heldByOther)
      else ({ w with held := file.id :: w.held }, .ok (.acquired file.id))
    | _ => (w, .error (.lock .notFound))

def unlock (w : World) (lock : Nat) : World := { w with held := w.held.erase lock }

end World

end StyleBuild
