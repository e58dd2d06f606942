import Mathlib.Data.Int.Notation

/-! Error codes of the kernel. A function returns `0` or a negated code. -/
namespace YoctoLayers.Lib

def eperm : ℤ := 1
def eintr : ℤ := 4
def enxio : ℤ := 6
def eagain : ℤ := 11
def enomem : ℤ := 12
def efault : ℤ := 14
def enodev : ℤ := 19
def einval : ℤ := 22
def erange : ℤ := 34
def ebadmsg : ℤ := 74
def eilseq : ℤ := 84
def eopnotsupp : ℤ := 95
def enobufs : ℤ := 105
def etimedout : ℤ := 110

end YoctoLayers.Lib
