import Chip8.Fault

/-!
# Call stack

The return addresses of the calls in progress. The stack has a depth limit; a
call beyond it and a return without a call are faults, and a fault leaves the
stack as it was. The addresses are not required to lie in any range.
-/

set_option autoImplicit false

namespace Chip8

structure CallStack where
  limit : Int
  /-- Return addresses, newest first. -/
  frames : List Int := []
  deriving DecidableEq, Repr

namespace CallStack

def depth (stack : CallStack) : Nat := stack.frames.length

/-- The addresses held, oldest first. -/
def toList (stack : CallStack) : List Int := stack.frames.reverse

def push (stack : CallStack) (address : Int) : Except Fault CallStack :=
  if stack.limit ≤ stack.depth then .error (.stackOverflow stack.limit)
  else .ok { stack with frames := address :: stack.frames }

def pop (stack : CallStack) : Except Fault (Int × CallStack) :=
  match stack.frames with
  | [] => .error .stackUnderflow
  | address :: older => .ok (address, { stack with frames := older })

def clear (stack : CallStack) : CallStack := { stack with frames := [] }

theorem toList_push {stack pushed : CallStack} {address : Int}
    (accepted : stack.push address = .ok pushed) :
    pushed.toList = stack.toList ++ [address] := by
  unfold push at accepted
  split at accepted
  · cases accepted
  · cases accepted
    simp only [toList, List.reverse_cons]

theorem toList_pop {stack popped : CallStack} {address : Int}
    (taken : stack.pop = .ok (address, popped)) :
    stack.toList = popped.toList ++ [address] := by
  unfold pop at taken
  split at taken
  · cases taken
  · cases taken
    simp_all only [toList, List.reverse_cons]

end CallStack

end Chip8
