import Mathlib.Data.List.Basic

/-!
# Session commands

The commands of the Pi protocol, `SessionCommandTypeDto`: a request carries one, and its response is
decoded as a response to it.
-/

namespace PiAgentWeb

/-- `SessionCommandTypeDto`. -/
inductive SessionCommandTypeDto where
  | prompt
  | steer
  | followUp
  | abort
  | setThinkingLevel
  | setSteeringMode
  | setFollowUpMode
  | setAutoCompaction
  | setAutoRetry
  | abortRetry
  | abortBash
  | setSessionName
  | newSession
  | getState
  | setModel
  | cycleModel
  | getAvailableModels
  | cycleThinkingLevel
  | getAvailableThinkingLevels
  | compact
  | bash
  | getSessionStats
  | exportHtml
  | switchSession
  | fork
  | clone
  | getForkMessages
  | getEntries
  | getTree
  | getLastAssistantText
  | getMessages
  | getCommands
  deriving DecidableEq

end PiAgentWeb
