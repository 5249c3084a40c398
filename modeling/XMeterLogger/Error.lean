/-! The statuses of `utils/error.h`, with which the tasks end the process. -/
namespace XMeterLogger

def egenerr : Nat := 1
def esyserr : Nat := 2
def esvrerr : Nat := 3
def equerr : Nat := 4

end XMeterLogger
