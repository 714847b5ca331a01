/-
Module: Waspp.Model.Redis3mReply
Layer: Model
Purpose: A `redis3m::reply`, which copies the reply object of the library, and what `get_reply` makes of it.
Imports: Waspp.Model.HiredisRead, Waspp.Model.Redis3m, Waspp.Model.Utility
Trusted boundary: human-reviewed translation of redis3m::reply and of get_reply behind redisGetReply in
  redis3m.hpp
Main exports: ReplyType, Reply, Reply.construct, outcomeOf
Open obligations: none
-/
import Waspp.Model.HiredisRead
import Waspp.Model.Redis3m
import Waspp.Model.Utility

namespace Waspp.Redis3m

open CString Hiredis

/-- `type_t`. -/
inductive ReplyType where
  | string
  | array
  | integer
  | nil
  | status
  | error
deriving DecidableEq, Repr

/-- `redis3m::reply`: `type_`, `str_`, `integer_` and `elements_`. -/
inductive Reply where
  | mk (type : ReplyType) (str : Bytes) (integer : Int) (elements : List Reply)

namespace Reply

def type : Reply → ReplyType
  | mk type _ _ _ => type

def str : Reply → Bytes
  | mk _ str _ _ => str

mutual

/-- `reply(redisReply* rep)`. -/
def construct : RedisReply → Except Fault Reply
  | .error str => .ok (mk .error str 0 [])
  | .string str => .ok (mk .string str 0 [])
  | .status str => .ok (mk .status str 0 [])
  | .integer value => .ok (mk .integer [] value [])
  | .array elements element => (constructAll elements element).map (mk .array [] 0)
  | .nil => .ok (mk .nil [] 0 [])

/-- Its loop over `rep->element[i]`, undefined where `rep->elements` counts more than there are. -/
def constructAll : Nat → List RedisReply → Except Fault (List Reply)
  | 0, _ => .ok []
  | _ + 1, [] => .error .undefinedBehaviour
  | elements + 1, rep :: element => do
      let first ← construct rep
      let others ← constructAll elements element
      .ok (first :: others)

end

/-- `rep.type() == ERROR_ && rep.str().find("READONLY") == 0`. -/
def isReadOnly (rep : Reply) : Bool := rep.type = .error && find rep.str (bytes "READONLY") 0 = some 0

end Reply

/-- How a call of `get_reply` ends that read the reply. -/
def outcomeOf (r : RedisReply) : Except Fault Outcome :=
  (Reply.construct r).map fun rep => if rep.isReadOnly then .readOnly else .answered

end Waspp.Redis3m
