/-
Names of notification channels:

* `Channel`: an identifier of at most 63 characters, which is what the database
  takes as the name of a channel;
* `Channel.ofName?`: the channel of a name;
* `ofName?_eq_some_iff`: a name that is one is kept as it is.
-/
namespace LeaseQueue

namespace Channel

/-- A letter or an underscore. -/
def isStart (c : Char) : Bool := c.isAlpha || c == '_'

/-- A letter, a digit or an underscore. -/
def isPart (c : Char) : Bool := c.isAlphanum || c == '_'

/-- The greatest length of an identifier. -/
def maxLength : Nat := 63

/-- A text is an identifier. All its characters are single bytes, so that its
length is the same in bytes. -/
def isIdentifier (text : String) : Bool :=
  match text.toList with
  | [] => false
  | c :: rest => isStart c && rest.all isPart && decide (rest.length < maxLength)

end Channel

/-- A notification channel. -/
structure Channel where
  name : String
  valid : Channel.isIdentifier name = true

namespace Channel

instance : DecidableEq Channel := fun a b =>
  if h : a.name = b.name then
    isTrue (by cases a; cases b; simp_all)
  else
    isFalse fun e => h (e ▸ rfl)

/-- The channel of a name, if the name is an identifier. -/
def ofName? (name : String) : Option Channel :=
  if h : isIdentifier name = true then some ⟨name, h⟩ else none

theorem ofName?_eq_some_iff {name : String} {channel : Channel} :
    ofName? name = some channel ↔ channel.name = name := by
  cases channel with
  | mk channelName h =>
    by_cases hn : isIdentifier name = true
    · simp [ofName?, hn, eq_comm]
    · simp only [ofName?, hn, Bool.false_eq_true, dite_false, reduceCtorEq, false_iff]
      rintro rfl
      exact hn h

@[simp] theorem ofName?_name (channel : Channel) : ofName? channel.name = some channel :=
  ofName?_eq_some_iff.2 rfl

/-- The channel of the queue unless another one is chosen. -/
def standard : Channel := ⟨"tasks", by decide +kernel⟩

end Channel
end LeaseQueue
