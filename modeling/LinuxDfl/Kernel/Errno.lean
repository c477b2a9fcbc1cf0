import Mathlib.Algebra.Order.Ring.Int

/-!
# Error codes

The kernel functions of this development report failure by a negative error
code.  A function which returns `0` or `-errno` is modelled by an
`Option Errno` (with `none` for the return value zero), and a function which
returns a pointer or an error pointer by `Except Errno`.
-/

namespace LinuxDfl.Kernel

/-- The error codes named by the modelled sources. -/
inductive Errno where
  | eperm
  | enoent
  | eio
  | enxio
  | ebadf
  | eagain
  | enomem
  | efault
  | ebusy
  | eexist
  | enodev
  | einval
  | enotty
  | eopnotsupp
  | etimedout
  /-- Any other code, as returned by a subsystem outside the sources. -/
  | other (code : Nat)
  deriving DecidableEq, Repr

end LinuxDfl.Kernel
