import SecondhandAgent.Fencing
import SecondhandAgent.Notices
import SecondhandAgent.Decisions
import SecondhandAgent.Drafts
import SecondhandAgent.Planner
import SecondhandAgent.Commanding
import SecondhandAgent.Continuation
import SecondhandAgent.References
import SecondhandAgent.Lookup
import SecondhandAgent.Totality
import SecondhandAgent.Conversation
import SecondhandAgent.Endings
import SecondhandAgent.Artifacts
import SecondhandAgent.TaskLeases
import SecondhandAgent.Authorization
import SecondhandAgent.Rechecks
import SecondhandAgent.Wording
import SecondhandAgent.Replies
import SecondhandAgent.Termination
import SecondhandAgent.Recall
import SecondhandAgent.Winding
import SecondhandAgent.Preparation
import SecondhandAgent.Legacy.Deals
import SecondhandAgent.Listings
import SecondhandAgent.Amounts
import SecondhandAgent.Agent.Memory
import SecondhandAgent.Agent.Assembly
import SecondhandAgent.Agent.Reviewed
import SecondhandAgent.Tokens
import SecondhandAgent.Client.Unresolved
import SecondhandAgent.Exported
import SecondhandAgent.Numerals
import SecondhandAgent.Stated
import SecondhandAgent.Acknowledging
import SecondhandAgent.Window
import SecondhandAgent.Requests
import SecondhandAgent.Parties
import SecondhandAgent.Quiescence
import SecondhandAgent.Overdue
import SecondhandAgent.Torn
import SecondhandAgent.Scoring
