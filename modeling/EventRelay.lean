import EventRelay.Client
import EventRelay.CommandLine.Console
import EventRelay.Main
import EventRelay.Proofs.Abandoned
import EventRelay.Proofs.Answers
import EventRelay.Proofs.Dispatch
import EventRelay.Proofs.Displaced
import EventRelay.Proofs.Ends
import EventRelay.Proofs.Extensions
import EventRelay.Proofs.HandOff
import EventRelay.Proofs.NormalForm
import EventRelay.Proofs.Outages
import EventRelay.Proofs.OwnStream
import EventRelay.Proofs.Passed
import EventRelay.Proofs.Punctual
import EventRelay.Proofs.Recorded
import EventRelay.Proofs.Refused
import EventRelay.Proofs.Remnants
import EventRelay.Proofs.Replies
import EventRelay.Proofs.Revived
import EventRelay.Proofs.Scans
import EventRelay.Proofs.Slices
import EventRelay.Proofs.Timers
import EventRelay.Proofs.Undisturbed
import EventRelay.Proofs.Unread
import EventRelay.Proofs.Wrapped
import EventRelay.Replay.Solo
import EventRelay.Store
import EventRelay.Proofs.OnDisk
import EventRelay.Proofs.Wrapped
