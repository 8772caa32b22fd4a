namespace GameText

inductive Level where
  | info | warning | error
  deriving DecidableEq, Repr

structure LogLine where
  level : Level
  message : String
  deriving DecidableEq, Repr

abbrev Log := List LogLine

end GameText
